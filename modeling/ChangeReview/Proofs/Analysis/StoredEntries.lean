import ChangeReview.Proofs.Analysis.PassedOver
import ChangeReview.Proofs.Analysis.Transparency
import ChangeReview.Proofs.Cache.Advice

/-!
# Whatever the cache holds

An analysis with a cache meets one of three things under its key: a report, which it serves; nothing
that it could serve, and then the run takes place as if there were no cache; or an entry on which it
ends. The last are the bytes that a reader of the cache does not get over, and values that have
something else where a report has a record.
-/
namespace ChangeReview.Analysis

open Disk
open Cache (Offers IsExpired Spoils document entryName fileUnder)

/-! ## Entries -/

/-- The bytes are a document of the report. -/
def Holds (content : ByteArray) (r : Report) : Prop :=
  ∃ v, document content = .ok v ∧ v ≠ .null ∧ Report.ofValue v = .ok r

/-- The bytes are no document, that of nothing, or that of a value which is passed over. -/
inductive IsPassedOver (content : ByteArray) : Prop where
  | noDocument (h : document content = .error .notJson)
  | null (h : document content = .ok .null)
  | noReport {v : Value} {fault : Fault} (h : document content = .ok v) (hnull : v ≠ .null)
      (hread : Report.ofValue v = .error fault) (hover : isDiscarded fault = true)

/-- The bytes end an analysis with a fault: they are not got over, or they are a document of a value
that is asked for a member which its kind lacks. -/
inductive Breaks (content : ByteArray) : Fault → Prop where
  | unread {fault : Fault} (h : Spoils content fault) : Breaks content fault
  | lacking {v : Value} {kind member : Text} (h : document content = .ok v) (hnull : v ≠ .null)
      (hread : Report.ofValue v = .error (.noMember kind member)) :
      Breaks content (.noMember kind member)

/-- Under a key is a report, something to pass over, or something that ends an analysis. -/
theorem cases_of_content (content : ByteArray) :
    (∃ r, Holds content r) ∨ IsPassedOver content ∨ ∃ fault, Breaks content fault := by
  cases hread : document content with
  | error fault =>
    by_cases hform : fault = .notJson
    · exact .inr (.inl (.noDocument (hform ▸ hread)))
    · exact .inr (.inr ⟨fault, .unread ⟨hread, hform⟩⟩)
  | ok v =>
    by_cases hnull : v = .null
    · exact .inr (.inl (.null (hnull ▸ hread)))
    · have hadmits := admits_report v
      cases hvalue : Report.ofValue v with
      | ok r => exact .inl ⟨r, v, hread, hnull, hvalue⟩
      | error fault =>
        rw [hvalue] at hadmits
        rcases hadmits.error with hover | ⟨-, kind, member, rfl⟩
        · exact .inr (.inl (.noReport hread hnull hvalue hover))
        · exact .inr (.inr ⟨_, .lacking hread hnull hvalue⟩)

/-- A document of a value with objects in the places of records ends no analysis. -/
theorem not_breaks_of_isLayered {content : ByteArray} {v : Value} (h : document content = .ok v)
    (hlayered : IsLayered v) (fault : Fault) : ¬ Breaks content fault := by
  intro hbreaks
  cases hbreaks with
  | unread hspoils => exact absurd (h.symm.trans hspoils.1) (by simp)
  | lacking hread _ hvalue =>
    obtain rfl := Except.ok.inj (h.symm.trans hread)
    have hadmits := admits_report v
    rw [hvalue] at hadmits
    rcases hadmits.error with hover | ⟨hno, -⟩
    · exact absurd hover (by simp [isDiscarded, Fault.isBadValue, Fault.isMismatch])
    · exact hno hlayered

/-! ## What is fetched -/

section Fetch

variable {c : Cache} {d : Disk} {now : Instant} {key : Text} {content : ByteArray}

theorem fetch_holds {r : Report} (hoffer : Offers c d now key Cache.defaultLife content)
    (h : Holds content r) : fetch c d now key = (d, .ok (some (served r))) := by
  obtain ⟨v, hread, hnull, hvalue⟩ := h
  unfold fetch
  rw [hoffer.get, (Cache.decode_eq_some_iff content v).mpr ⟨hread, hnull⟩]
  dsimp only
  rw [hvalue]

theorem fetch_passedOver (hoffer : Offers c d now key Cache.defaultLife content)
    (h : IsPassedOver content) : fetch c d now key = (d, .ok none) := by
  unfold fetch
  rw [hoffer.get]
  cases h with
  | noDocument h => rw [Cache.decode_eq, h]
  | null h => rw [Cache.decode_eq, h]; rfl
  | noReport h hnull hread hover =>
    rw [(Cache.decode_eq_some_iff content _).mpr ⟨h, hnull⟩]
    dsimp only
    rw [hread]
    dsimp only
    rw [if_pos hover]

theorem fetch_breaks {fault : Fault} (hoffer : Offers c d now key Cache.defaultLife content)
    (h : Breaks content fault) : fetch c d now key = (d, .error fault) := by
  unfold fetch
  rw [hoffer.get]
  cases h with
  | unread h => rw [(Cache.decode_eq_error_iff content fault).mpr h]
  | lacking h hnull hread =>
    rw [(Cache.decode_eq_some_iff content _).mpr ⟨h, hnull⟩]
    dsimp only
    rw [hread]
    rfl

theorem fetch_expired {place : Place} (h : IsExpired c d now key Cache.defaultLife place) :
    fetch c d now key = (d.removeBelow place, .ok none) := by
  unfold fetch
  rw [h.get]

end Fetch

/-! ## Runs with and without a cache -/

section Runs

variable {σ τ : Type} {p : Prepared} {c : Cache} {s : Surroundings} {o : Workflow.Observer τ}
  {site : Site σ} {w : τ}

/-- The request without a cache, ready to run. -/
def Prepared.uncached (p : Prepared) : Prepared :=
  { p with settings := { p.settings with useCache := false }, cache := none }

/-- Two analyses ended alike in all but the disk. -/
structure EndsAlike (e e' : Ended σ τ) : Prop where
  report : e.report = e'.report
  trace : e.trace = e'.trace
  observer : e.observer = e'.observer
  here : e.site.here = e'.site.here
  registry : e.site.registry = e'.site.registry

/-- The analysis is the run that takes place on a miss, and ends as without a cache. -/
structure RunsAsOnAMiss (p : Prepared) (s : Surroundings) (o : Workflow.Observer τ) (site : Site σ)
    (w : τ) (e : Ended σ τ) : Prop where
  computed : e = compute p s o site w
  uncached : EndsAlike e (compute p.uncached s o site w)

theorem mode_of_prepare {env : Environment} {d : Disk} {q : Request}
    (h : prepare env d q = .ok p) : p.context.mode = some (q.mode.getD {}) := by
  obtain ⟨files, docs, -, -, -, hcontext, -, -⟩ := prepare_eq_ok_iff.mp h
  obtain ⟨_, _, _, -, -, -, -, -, -, heq⟩ := Context.ofArguments_eq_ok_iff.mp hcontext
  rw [heq]
  rfl

/-- The report of a run can be kept. -/
theorem remember_eq_ok {mode : Report.Mode} {b : Backend σ} {r : Report}
    (hfolder : ∀ c, p.cache = some c → '\x00' ∉ c.folder) (hmode : p.context.mode = some mode)
    (hrun : (execute p s o b site w).report = .ok r) (d : Disk) (now : Instant) :
    (remember p d now r).2 = .ok () := by
  rw [execute_report] at hrun
  obtain ⟨hmode', x, hcost⟩ := figures_of_run hrun
  obtain ⟨v, hv⟩ := Report.exists_toValue (r := r) (x := .double x) (hmode'.trans hmode)
    (by rw [hcost]; rfl)
  unfold remember
  rw [hv]
  cases hcache : p.cache with
  | none => rfl
  | some c => exact Cache.set_eq_ok (hfolder c hcache) (null_not_mem_key p) v

/-- Keeping its report changes nothing about a run but the disk. -/
theorem endsAlike_kept {mode : Report.Mode} {b : Backend σ}
    (hfolder : ∀ c, p.cache = some c → '\x00' ∉ c.folder) (hmode : p.context.mode = some mode) :
    EndsAlike (kept p s (execute p s o b site w)) (execute p s o b site w) := by
  unfold kept
  split
  · exact ⟨rfl, rfl, rfl, rfl, rfl⟩
  · next r hrun =>
    refine ⟨?_, rfl, rfl, rfl, rfl⟩
    dsimp only
    rw [remember_eq_ok hfolder hmode hrun, hrun]
    rfl

theorem EndsAlike.symm {e e' : Ended σ τ} (h : EndsAlike e e') : EndsAlike e' e :=
  ⟨h.report.symm, h.trace.symm, h.observer.symm, h.here.symm, h.registry.symm⟩

theorem EndsAlike.trans {e e' e'' : Ended σ τ} (h : EndsAlike e e') (h' : EndsAlike e' e'') :
    EndsAlike e e'' :=
  ⟨h.report.trans h'.report, h.trace.trans h'.trace, h.observer.trans h'.observer,
    h.here.trans h'.here, h.registry.trans h'.registry⟩

/-- A run with a cache ends as it does without one. -/
theorem endsAlike_uncached {mode : Report.Mode}
    (hfolder : ∀ c, p.cache = some c → '\x00' ∉ c.folder) (hmode : p.context.mode = some mode) :
    EndsAlike (compute p s o site w) (compute p.uncached s o site w) := by
  have hsame : execute p.uncached s o = (execute p s o : Backend σ → Site σ → τ → Ended σ τ) := rfl
  have hprovider : p.uncached.settings.provider = p.settings.provider := rfl
  have hoptions : p.uncached.backendOptions = p.backendOptions := rfl
  unfold compute
  rw [hprovider, hoptions, hsame]
  split
  · dsimp only
    split
    · exact ⟨rfl, rfl, rfl, rfl, rfl⟩
    · have hnone : ∀ c, p.uncached.cache = some c → '\x00' ∉ c.folder := by
        simp [Prepared.uncached]
      exact (endsAlike_kept hfolder hmode).trans (endsAlike_kept hnone hmode).symm
  · exact ⟨rfl, rfl, rfl, rfl, rfl⟩

/-! ## Analyses -/

variable {q : Request} {content : ByteArray}

theorem analyze_fetch (hprepare : prepare s.environment site.disk q = .ok p)
    (hcache : p.cache = some c) :
    analyze s o site w q =
      match fetch c site.disk s.now p.key with
      | (d, .error fault) => ⟨{ site with disk := d }, w, {}, .error fault⟩
      | (d, .ok (some r)) => ⟨{ site with disk := d }, w, {}, .ok r⟩
      | (d, .ok none) => compute p s o { site with disk := d } w := by
  have hfetchFor : fetchFor p site.disk s.now = fetch c site.disk s.now p.key := by
    unfold fetchFor
    rw [hcache]
  unfold analyze
  rw [hprepare]
  dsimp only
  rw [hfetchFor]
  obtain ⟨d, fault | _ | r⟩ := fetch c site.disk s.now p.key <;> rfl

theorem runsAsOnAMiss {d : Disk} (hprepare : prepare s.environment site.disk q = .ok p)
    (hcache : p.cache = some c) (hfolder : '\x00' ∉ c.folder)
    (hfetch : fetch c site.disk s.now p.key = (d, .ok none)) :
    RunsAsOnAMiss p s o { site with disk := d } w (analyze s o site w q) := by
  have hcompute : analyze s o site w q = compute p s o { site with disk := d } w := by
    rw [analyze_fetch hprepare hcache, hfetch]
  refine ⟨hcompute, hcompute ▸ endsAlike_uncached (fun c' hc' => ?_) (mode_of_prepare hprepare)⟩
  obtain rfl := Option.some.inj (hcache.symm.trans hc')
  exact hfolder

theorem analyze_breaks {fault : Fault} (hprepare : prepare s.environment site.disk q = .ok p)
    (hcache : p.cache = some c)
    (hfetch : fetch c site.disk s.now p.key = (site.disk, .error fault)) :
    analyze s o site w q = ⟨site, w, {}, .error fault⟩ := by
  rw [analyze_fetch hprepare hcache, hfetch]

/-- Whatever stands under the key of a request, its analysis serves the report that is there, or takes
place as on a miss, exactly unless a young entry is one of those that end it with a fault. An entry
of a value with objects in the places of records is none of those, whatever else it holds. -/
theorem analyze_entry (hprepare : prepare s.environment site.disk q = .ok p)
    (hcache : p.cache = some c) (hfolder : '\x00' ∉ c.folder) :
    (∀ content, Offers c site.disk s.now p.key Cache.defaultLife content →
      (∀ r, Holds content r → analyze s o site w q = ⟨site, w, {}, .ok (served r)⟩) ∧
      (IsPassedOver content → RunsAsOnAMiss p s o site w (analyze s o site w q)) ∧
      (∀ fault, Breaks content fault → analyze s o site w q = ⟨site, w, {}, .error fault⟩) ∧
      ((∃ r, Holds content r) ∨ IsPassedOver content ↔ ∀ fault, ¬ Breaks content fault)) ∧
    (∀ place, IsExpired c site.disk s.now p.key Cache.defaultLife place →
      RunsAsOnAMiss p s o { site with disk := site.disk.removeBelow place } w
        (analyze s o site w q)) ∧
    ∀ content v, document content = .ok v → IsLayered v → ∀ fault, ¬ Breaks content fault := by
  refine ⟨fun content hoffer => ⟨fun r h => ?_, fun h => ?_, fun fault h => ?_, ?_, ?_⟩, ?_, ?_⟩
  · rw [analyze_fetch hprepare hcache, fetch_holds hoffer h]
  · exact runsAsOnAMiss hprepare hcache hfolder (fetch_passedOver hoffer h)
  · exact analyze_breaks hprepare hcache (fetch_breaks hoffer h)
  · rintro (⟨r, h⟩ | h) fault hbreaks
    · exact absurd ((fetch_holds hoffer h).symm.trans (fetch_breaks hoffer hbreaks)) (by simp)
    · exact absurd ((fetch_passedOver hoffer h).symm.trans (fetch_breaks hoffer hbreaks)) (by simp)
  · intro hno
    rcases cases_of_content content with h | h | ⟨fault, h⟩
    · exact .inl h
    · exact .inr h
    · exact absurd h (hno fault)
  · intro place h
    exact runsAsOnAMiss hprepare hcache hfolder (fetch_expired h)
  · intro content v h hlayered
    exact not_breaks_of_isLayered h hlayered

end Runs

/-! ## Plain requests -/

section Plain

theorem find_fileUnder {key : Text} (hfits : Fits (Cache.ofRepository ".").folder (entryName key))
    (content : ByteArray) :
    (fileUnder key content).find ((Cache.ofRepository ".").entryPath key) =
      .ok (([".pr-agent", "cache"] : Place) ++ [entryName key], .file content 0) := by
  have hfolder : (fileUnder key content).find (Cache.ofRepository ".").folder =
      .ok ([".pr-agent", "cache"], .folder) := by rfl
  have hplace : Place.isGiven (([".pr-agent", "cache"] : Place) ++ [entryName key]) = false := by rfl
  have hnode : (fileUnder key content).node? (([".pr-agent", "cache"] : Place) ++ [entryName key]) =
      some (.file content 0) := by
    rw [Disk.node?, hplace, if_neg Bool.false_ne_true]
    simp [fileUnder, Cache.madeFolder, List.lookup]
  rw [Cache.entryPath_eq, hfits.find_eq hfolder, hnode]

/-- A plain site with bytes under the key of a plain request. -/
def storedSite (content : ByteArray) : Site Unit := plainSite (fileUnder (plainKey []) content)

theorem hasRoom_here : HasRoom "." [] := by decide +kernel

/-- A plain request finds the bytes of its entry. -/
theorem offers_plain (content : ByteArray) :
    Offers (.ofRepository ".") (storedSite content).disk (plainSurroundings 1000).now
      (plainPrepared "." none).key Cache.defaultLife content := by
  have hyoung : Cache.isOlder (Instant.since 0 1000) Cache.defaultLife = .ok false :=
    congrArg Except.ok (by decide +kernel)
  have hkey : (plainPrepared "." none).key = plainKey [] := key_plain "." none
  rw [hkey]
  exact ⟨_, 0, find_fileUnder (fits_plain hasRoom_here) content, hyoung⟩

theorem prepare_stored (content : ByteArray) :
    prepare (plainSurroundings 1000).environment (storedSite content).disk (plainRequest ".") =
      .ok (plainPrepared "." none) :=
  prepare_plain (by decide) (by rfl)

/-- A document with a fix that names no file. -/
def fixWithoutFile : ByteArray := Text.toUtf8 "\x7b\"fixes\": [\x7b\"comment\": \"unused\"\x7d]\x7d"

theorem isPassedOver_fixWithoutFile : IsPassedOver fixWithoutFile := by
  have hread : document fixWithoutFile =
      .ok (.members [("fixes", .list [.members [("comment", .text "unused")]])]) :=
    eq_ok_of_toOption (by decide +kernel)
  have hmissing : Report.ofValue (.members [("fixes", .list [.members [("comment", .text "unused")]])]) =
      .error (.missingKey "file") := by rfl
  exact .noReport hread (by simp [Value.members]) hmissing rfl

/-- A plain request whose entry has a fix without a file is computed as on a miss. -/
theorem analyze_entry_fixWithoutFile :
    prepare (plainSurroundings 1000).environment (storedSite fixWithoutFile).disk
        (plainRequest ".") = .ok (plainPrepared "." none) ∧
      (plainPrepared "." none).cache = some (.ofRepository ".") ∧
      '\x00' ∉ (Cache.ofRepository ".").folder ∧
      RunsAsOnAMiss (plainPrepared "." none) (plainSurroundings 1000) unmoved
        (storedSite fixWithoutFile) ()
        (analyze (plainSurroundings 1000) unmoved (storedSite fixWithoutFile) ()
          (plainRequest ".")) := by
  have hprepare := prepare_stored fixWithoutFile
  have hcache : (plainPrepared "." none).cache = some (.ofRepository ".") := rfl
  have hfolder : '\x00' ∉ (Cache.ofRepository ".").folder := by decide
  have hentry := analyze_entry (o := unmoved) (w := ()) hprepare hcache hfolder
  have hyoung := hentry.1 fixWithoutFile (offers_plain fixWithoutFile)
  exact ⟨hprepare, hcache, hfolder, hyoung.2.1 isPassedOver_fixWithoutFile⟩

/-- A list in the place of a report. -/
def listOfOne : ByteArray := Text.toUtf8 "[1]"

theorem breaks_listOfOne : Breaks listOfOne (.noMember "list" "get") := by
  have hread : document listOfOne = .ok (.list [.int 1]) := eq_ok_of_toOption (by decide +kernel)
  exact .lacking hread (by simp) rfl

/-- A list under its key ends the analysis of a request that has a report without a cache. -/
theorem analyze_listOfOne :
    (analyze (plainSurroundings 1000) unmoved (storedSite listOfOne) () (plainRequest ".")).report =
        .error (.noMember "list" "get") ∧
      ∃ r, (analyze (plainSurroundings 1000) unmoved (storedSite listOfOne) ()
        ((plainRequest ".").uncached (plainPrepared "." none).settings)).report = .ok r := by
  have hprepare := prepare_stored listOfOne
  have hfetch := fetch_breaks (offers_plain listOfOne) breaks_listOfOne
  have hruns : Runs (plainPrepared "." none) (storedSite listOfOne).disk := by decide +kernel
  obtain ⟨r, hrun, -⟩ := Option.bind_eq_some_iff.mp hruns
  constructor
  · rw [analyze_breaks hprepare rfl hfetch]
  · refine ⟨r, analyze_uncached unmoved () hprepare rfl (get_plain _ "." none) fun here => ?_⟩
    rw [← execute_report (plainPrepared "." none) (plainSurroundings 1000) unmoved refusing
      (storedSite listOfOne) ()]
    exact eq_ok_of_toOption hrun

end Plain

end ChangeReview.Analysis

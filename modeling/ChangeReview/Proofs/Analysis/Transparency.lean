import ChangeReview.Proofs.Analysis.Replay
import ChangeReview.Proofs.Workflow.Alike

/-!
# What a key leaves out

Requests with the same key get the same cached report. The key tells of the diff, the title, the
provider, the model and the names of the documents, but neither of the budgets, the mode and the
other options of the backend nor of what the documents say. Where two requests agree in these as
well, the report that is served is the one that the second request would come to without a cache,
and where they differ it need not be.
-/
namespace ChangeReview.Analysis

open Disk
open Cache (entryName Reads)

/-! ## Backends whose answers do not depend on earlier calls -/

/-- The names of a backend, and its answers. -/
structure Voice where
  provider : Value
  model : Value
  reply : Call → Except Fault Response

variable {σ τ : Type}

/-- The backend answers so, whatever it was asked before. -/
structure Speaks (b : Backend σ) (v : Voice) : Prop where
  provider : b.provider = v.provider
  model : b.model = v.model
  reply : ∀ here call, (b.invoke here call).2 = v.reply call

/-- What a backend of the registry answers is a function of its name and its options. -/
def SpeaksBy (registry : Registry σ (Backend σ)) (voices : Text → BuildOptions → Voice) : Prop :=
  ∀ here name options b, (registry.get here name options).2.2 = .ok b →
    Speaks b (voices name options)

theorem Speaks.sameAnswers {b b' : Backend σ} {v : Voice} (h : Speaks b v) (h' : Speaks b' v) :
    Workflow.SameAnswers b b' := fun here here' call => by rw [h.reply, h'.reply]

theorem Speaks.originOf {b b' : Backend σ} {v : Voice} (h : Speaks b v) (h' : Speaks b' v)
    (provider model : Value) :
    Workflow.originOf b' provider model = Workflow.originOf b provider model := by
  unfold Workflow.originOf
  rw [h.provider, h.model, h'.provider, h'.model]

/-! ## What a key tells -/

/-- What the key of a request tells is the same for both. -/
structure SameKeyed (p p' : Prepared) : Prop where
  diff : p'.context.diff = p.context.diff
  title : p'.context.title = p.context.title
  provider : p'.settings.provider = p.settings.provider
  model : p'.settings.model = p.settings.model
  scan : p'.context.scanEnabled = p.context.scanEnabled

theorem sameKeyed_of_identity {p p' : Prepared} (h : p'.identity = p.identity) : SameKeyed p p' := by
  rw [identity_eq, identity_eq] at h
  simp only [Value.members, Value.object.injEq, List.map_cons, List.map_nil, List.cons.injEq,
    Prod.mk.injEq, Value.text.injEq, true_and, and_true] at h
  obtain ⟨hdiff, htitle, hprovider, hmodel, -, -, hscan, -⟩ := h
  exact ⟨hdiff, htitle, hprovider, hmodel, hscan⟩

/-- What a request brings and its key does not tell is the same for both. -/
structure SameRest (p p' : Prepared) : Prop where
  budget : p'.context.tokenBudget = p.context.tokenBudget
  limit : p'.context.maxCost = p.context.maxCost
  mode : p'.context.mode = p.context.mode
  maxTokens : p'.settings.maxTokens = p.settings.maxTokens
  temperature : p'.settings.temperature = p.settings.temperature
  documents : documentsOf p'.context.docs = documentsOf p.context.docs

/-! ## The contexts of two requests -/

/-- The context of a request that is ready. -/
theorem context_of_prepare {env : Environment} {d : Disk} {q : Request} {p : Prepared}
    (h : prepare env d q = .ok p) :
    q.diff = .text p.context.diff ∧ p.context.title = q.title ∧
      p.context.repository = q.repository ∧ p.context.files = Diff.parse p.context.diff ∧
      docsOf d q p.context.files = .ok p.context.docs := by
  obtain ⟨files, docs, -, hfiles, hdocs, hcontext, -, -⟩ := prepare_eq_ok_iff.mp h
  obtain ⟨diff, _, _, hdiff, -, -, -, -, -, heq⟩ := Context.ofArguments_eq_ok_iff.mp hcontext
  rw [heq]
  change q.diff = .text diff at hdiff
  rw [hdiff] at hfiles
  obtain rfl := Except.ok.inj hfiles
  exact ⟨hdiff, rfl, rfl, rfl, hdocs⟩

/-- The documents of a request are none to go by, or make its context with its title. -/
theorem docsOf_cases {d : Disk} {q : Request} {files : List ChangedFile} {docs : Option Docs.Context}
    (h : docsOf d q files = .ok docs) :
    ¬ Docs.IsAvailable docs ∧ documentsOf docs = [] ∨
      ∃ title, q.title.textFor "split" = .ok title ∧ documentsOf docs ≠ [] ∧
        docs = some (Docs.Context.build (documentsOf docs) title files q.diff.text?) := by
  have hnone : ¬ Docs.IsAvailable none ∧ documentsOf none = [] :=
    ⟨fun ⟨_, hsome, _⟩ => absurd hsome (by simp), rfl⟩
  unfold docsOf at h
  split at h
  · obtain ⟨path, -, h⟩ := exists_of_bind_eq_ok h
    obtain ⟨there, -, h⟩ := exists_of_bind_eq_ok h
    cases there with
    | false =>
      obtain rfl := Except.ok.inj h
      exact .inl hnone
    | true =>
      obtain ⟨documents, -, h⟩ := exists_of_bind_eq_ok h
      obtain ⟨context, hcontext, h⟩ := exists_of_bind_eq_ok h
      obtain rfl := Except.ok.inj h
      cases documents with
      | nil =>
        obtain rfl := Except.ok.inj hcontext
        refine .inl ⟨?_, rfl⟩
        rintro ⟨c, hc, hon⟩
        obtain rfl := Option.some.inj hc
        exact absurd hon (by simp [Docs.Context.build])
      | cons document rest =>
        obtain ⟨title, htitle, hcontext⟩ := exists_of_bind_eq_ok hcontext
        obtain rfl := Except.ok.inj hcontext
        exact .inr ⟨title, htitle, by simp [documentsOf, Docs.Context.build], rfl⟩
  · obtain rfl := Except.ok.inj h
    exact .inl hnone

/-- The same documents make contexts that a run does not tell apart. -/
theorem docs_alike {d d' : Disk} {q q' : Request} {files : List ChangedFile}
    {docs docs' : Option Docs.Context} (h : docsOf d q files = .ok docs)
    (h' : docsOf d' q' files = .ok docs') (htitle : q'.title = q.title) (hdiff : q'.diff = q.diff)
    (hdocuments : documentsOf docs' = documentsOf docs) : Docs.Alike docs docs' := by
  rcases docsOf_cases h with ⟨hoff, hempty⟩ | ⟨title, hread, hsome, hbuilt⟩
  · rcases docsOf_cases h' with ⟨hoff', -⟩ | ⟨-, -, hsome', -⟩
    · exact .inr ⟨hoff, hoff'⟩
    · exact absurd (hdocuments.trans hempty) hsome'
  · rcases docsOf_cases h' with ⟨-, hempty'⟩ | ⟨title', hread', -, hbuilt'⟩
    · exact absurd (hdocuments.symm.trans hempty') hsome
    · rw [htitle] at hread'
      obtain rfl := Except.ok.inj (hread.symm.trans hread')
      rw [hdocuments, hdiff, ← hbuilt] at hbuilt'
      exact .inl hbuilt'

/-- Two requests with the same key and the same rest have like contexts. -/
theorem contexts_alike {env env' : Environment} {d d' : Disk} {q q' : Request} {p p' : Prepared}
    (hprepare : prepare env d q = .ok p) (hprepare' : prepare env' d' q' = .ok p')
    (hrepository : q'.repository = q.repository) (hkeyed : SameKeyed p p') (hrest : SameRest p p')
    (hoff : p.context.scanEnabled.truthy = false) : p.context.Alike p'.context := by
  obtain ⟨hdiff, htitle, hpath, hfiles, hdocs⟩ := context_of_prepare hprepare
  obtain ⟨hdiff', htitle', hpath', hfiles', hdocs'⟩ := context_of_prepare hprepare'
  have hsameFiles : p'.context.files = p.context.files := by rw [hfiles, hfiles', hkeyed.diff]
  rw [hsameFiles] at hdocs'
  refine ⟨hkeyed.diff, hkeyed.title, hsameFiles, hrest.budget, hrest.limit, hrest.mode, ?_, ?_,
    hoff, ?_⟩
  · rw [hpath, hpath', hrepository]
  · refine docs_alike hdocs hdocs' ?_ ?_ hrest.documents
    · rw [← htitle, ← htitle', hkeyed.title]
    · rw [hdiff, hdiff', hkeyed.diff]
  · rw [hkeyed.scan]
    exact hoff

/-! ## Runs -/

/-- The report of a run, whichever way it takes. -/
theorem execute_report (p : Prepared) (s : Surroundings) (o : Workflow.Observer τ) (b : Backend σ)
    (site : Site σ) (w : τ) :
    (execute p s o b site w).report =
      (Workflow.runQuick ⟨b, s.scanner⟩ site.here site.disk
        (Workflow.originOf b p.settings.provider .null) p.context).report := by
  have hseen := Workflow.runRecorded_seen ⟨b, s.scanner⟩ o site.here w site.disk
    (Workflow.originOf b p.settings.provider .null) p.context
  unfold execute
  dsimp only
  split
  · rfl
  · exact congrArg (fun seen => seen.2.2) hseen

/-- A report that has been computed is that of a run, whichever way it was computed. -/
theorem run_of_compute {p : Prepared} {s : Surroundings} {o : Workflow.Observer τ} {site : Site σ}
    {w : τ} {r : Report} (h : (compute p s o site w).report = .ok r) :
    ∃ name b here, p.settings.provider = .text name ∧
      (site.registry.get site.here name p.backendOptions).2.2 = .ok b ∧
      (Workflow.runQuick ⟨b, s.scanner⟩ here site.disk
        (Workflow.originOf b p.settings.provider .null) p.context).report = .ok r := by
  obtain ⟨name, b, registry, here, hname, hbuilt, hrun, -⟩ := compute_inv h
  rw [execute_report] at hrun
  exact ⟨name, b, here, hname, hbuilt, hrun⟩

/-- A report tells of the mode that its run was given and of a number for its cost. -/
theorem figures_of_run {w : World σ} {here : σ} {d : Disk} {origin : Workflow.Origin} {c : Context}
    {r : Report} (h : (Workflow.runQuick w here d origin c).report = .ok r) :
    r.mode = c.mode ∧ ∃ x, r.cost = .float x := by
  have hcontext := Workflow.Run.advanceAll_context w (Workflow.Run.start here c) Workflow.stages
  unfold Workflow.runQuick at h
  generalize (Workflow.Run.start here c).advanceAll w Workflow.stages = done at h hcontext
  obtain ⟨run, fault | done⟩ := done
  · exact nomatch h
  · have hreport : Workflow.reportOf d origin run.state = .ok r := h
    unfold Workflow.reportOf at hreport
    obtain ⟨cost, -, hreport⟩ := exists_of_bind_eq_ok hreport
    obtain ⟨notice, -, hreport⟩ := exists_of_bind_eq_ok hreport
    obtain ⟨tests, -, hreport⟩ := exists_of_bind_eq_ok hreport
    obtain ⟨coverage, -, hreport⟩ := exists_of_bind_eq_ok hreport
    rw [← Except.ok.inj hreport]
    exact ⟨congrArg Context.mode hcontext, cost, rfl⟩

theorem mode_of_compute {p : Prepared} {s : Surroundings} {o : Workflow.Observer τ} {site : Site σ}
    {w : τ} {r : Report} (h : (compute p s o site w).report = .ok r) : r.mode = p.context.mode := by
  obtain ⟨name, b, here, -, -, hrun⟩ := run_of_compute h
  exact (figures_of_run hrun).1

/-- The object of a served report tells of the mode that the report has. -/
theorem mode_of_served {r : Report} {mode : Report.Mode} {v : Value} (h : r.toValue = .ok v)
    (hmode : r.mode = some mode) :
    (withItem "reasoning" (.text servedLine) v).getD "mode" .null = .ok mode.toValue := by
  obtain ⟨mode', cost, hmode', -, rfl⟩ := (Report.toValue_eq_ok_iff r v).mp h
  obtain rfl := Option.some.inj (hmode.symm.trans hmode')
  rw [← toMembers_served]
  exact Report.getD_fixed (by rfl) _

/-- The request without a cache. -/
def Request.uncached (q : Request) (settings : Settings) : Request :=
  { q with cache := none, settings := some { settings with useCache := false } }

/-- Without a cache the run takes place. -/
theorem analyze_uncached_eq {s : Surroundings} (o : Workflow.Observer τ) {site : Site σ} (w : τ)
    {q : Request} {p : Prepared} (hprepare : prepare s.environment site.disk q = .ok p) :
    analyze s o site w (q.uncached p.settings) =
      compute { p with settings := { p.settings with useCache := false }, cache := none }
        s o site w := by
  obtain ⟨files, docs, -, hfiles, hdocs, hcontext, -, hquick⟩ := prepare_eq_ok_iff.mp hprepare
  have hprepare' : prepare s.environment site.disk (q.uncached p.settings) =
      .ok { p with settings := { p.settings with useCache := false }, cache := none } :=
    prepare_eq_ok_iff.mpr ⟨files, docs, rfl, hfiles, hdocs, hcontext, rfl, hquick⟩
  unfold analyze
  rw [hprepare']
  rfl

/-- Without a cache the report is that of the run. -/
theorem analyze_uncached {s : Surroundings} (o : Workflow.Observer τ) {site : Site σ} (w : τ)
    {q : Request} {p : Prepared} {name : Text} {b : Backend σ} {r : Report}
    (hprepare : prepare s.environment site.disk q = .ok p) (hname : p.settings.provider = .text name)
    (hbuilt : (site.registry.get site.here name p.backendOptions).2.2 = .ok b)
    (hrun : ∀ here, (Workflow.runQuick ⟨b, s.scanner⟩ here site.disk
      (Workflow.originOf b p.settings.provider .null) p.context).report = .ok r) :
    (analyze s o site w (q.uncached p.settings)).report = .ok r := by
  rw [analyze_uncached_eq o w hprepare]
  refine compute_report hname hbuilt (fun registry here => ?_) rfl
  rw [execute_report]
  exact hrun here

/-! ## Two analyses -/

/-- The first analysis is computed and put into a cache, and the second one, about the same
repository and without a scan, has the same key and is served what the first one put there. -/
structure Shares (voices : Text → BuildOptions → Voice) (c : Cache) (o : Workflow.Observer τ)
    (s s' : Surroundings) (site site' : Site σ) (w : τ) (q q' : Request) (p p' : Prepared)
    (r r' : Report) : Prop where
  prepared : prepare s.environment site.disk q = .ok p
  prepared' : prepare s'.environment site'.disk q' = .ok p'
  cached : p.cache = some c
  cached' : p'.cache = some c
  missed : (fetchFor p site.disk s.now).2 = .ok none
  first : (analyze s o site w q).report = .ok r
  reads : ∀ v, r.toValue = .ok v → Reads v
  /-- The keys are made from the same inputs. -/
  identity : p'.identity = p.identity
  /-- Under the key stands what the first analysis put there. -/
  entry : ∀ v, r.toValue = .ok v →
    ∃ place, site'.disk.find (c.entryPath p.key) = .ok (place, Cache.entry v s.now)
  hit : (fetchFor p' site'.disk s'.now).2 = .ok (some r')
  repository : q'.repository = q.repository
  /-- The files that a report may ask for are those that the first run found. -/
  files : ∀ path, q.repository = .text path →
    (fetchFor p site.disk s.now).1.SameFiles site'.disk path
  unscanned : p.context.scanEnabled.truthy = false
  speaks : SpeaksBy site.registry voices
  speaks' : SpeaksBy site'.registry voices
  /-- The settings of the second one name a backend that can be built. -/
  built : ∃ name b, p'.settings.provider = .text name ∧
    (site'.registry.get site'.here name p'.backendOptions).2.2 = .ok b

section Shares

variable {voices : Text → BuildOptions → Voice} {c : Cache} {o : Workflow.Observer τ}
  {s s' : Surroundings} {site site' : Site σ} {w : τ} {q q' : Request} {p p' : Prepared}
  {r r' : Report}

theorem Shares.first_eq (h : Shares voices c o s s' site site' w q q' p p' r r') :
    (compute p s o { site with disk := (fetchFor p site.disk s.now).1 } w).report = .ok r := by
  rw [← analyze_missed o w h.prepared h.missed]
  exact h.first

/-- The second analysis is served what the first one gave. -/
theorem Shares.served (h : Shares voices c o s s' site site' w q q' p p' r r')
    (o' : Workflow.Observer τ) (w' : τ) :
    (analyze s' o' site' w' q').report = .ok r' ∧
      ∃ v, r.toValue = .ok v ∧ r'.toValue = .ok (withItem "reasoning" (.text servedLine) v) := by
  obtain ⟨v, hv, -⟩ := compute_eq_ok h.cached h.first_eq
  obtain ⟨place, hfind⟩ := h.entry v hv
  have hsame : p'.key = p.key := congrArg Cache.key h.identity
  rw [← hsame] at hfind
  obtain ⟨r₁, hvalue, hfetch⟩ := fetchFor_entry h.cached' hfind hv (h.reads v hv) s'.now
  have hit := h.hit
  by_cases hyoung : TimedMap.age s.now s'.now ≤ 24 * 60 * 60
  · rw [if_pos hyoung] at hfetch
    rw [hfetch] at hit
    obtain rfl := Option.some.inj (Except.ok.inj hit)
    exact ⟨congrArg Ended.report (analyze_hit o' w' h.prepared' hfetch), v, hv, hvalue⟩
  · rw [hfetch, if_neg hyoung] at hit
    exact absurd hit (by simp)

/-- Where the rest is the same too, the second request would come to the same report by itself. -/
theorem Shares.computed (h : Shares voices c o s s' site site' w q q' p p' r r')
    (hrest : SameRest p p') (o' : Workflow.Observer τ) (w' : τ) :
    (analyze s' o' site' w' (q'.uncached p'.settings)).report = .ok r := by
  have hkeyed := sameKeyed_of_identity h.identity
  have halike := contexts_alike h.prepared h.prepared' h.repository hkeyed hrest h.unscanned
  obtain ⟨name, b, here, hname, hbuilt, hrun⟩ := run_of_compute h.first_eq
  obtain ⟨name', b', hname', hbuilt'⟩ := h.built
  -- both backends have the name and the options of the first one
  obtain rfl : name' = name := by
    rw [hkeyed.provider, hname] at hname'
    exact (Value.text.inj hname').symm
  have hoptions : p'.backendOptions = p.backendOptions := by
    unfold Prepared.backendOptions
    rw [hkeyed.model, hrest.maxTokens, hrest.temperature]
  have hvoice := h.speaks _ _ _ _ hbuilt
  have hvoice' := h.speaks' _ _ _ _ hbuilt'
  rw [hoptions] at hvoice'
  refine analyze_uncached o' w' h.prepared' hname' hbuilt' fun here' => ?_
  have hpath : ∀ path, p.context.repository = .text path →
      (fetchFor p site.disk s.now).1.SameFiles site'.disk path := by
    rw [(context_of_prepare h.prepared).2.2.1]
    exact h.files
  rw [hkeyed.provider, hvoice.originOf hvoice']
  exact (Workflow.runQuick_alike (hvoice.sameAnswers hvoice') halike hpath here here' _).trans hrun

/-- A request that is served what an earlier one gave is served what it would come to by itself,
except for the line of reasoning that says so, if both agree in what their key leaves out. -/
theorem served_is_computed (h : Shares voices c o s s' site site' w q q' p p' r r')
    (hrest : SameRest p p') (o' : Workflow.Observer τ) (w' : τ) :
    ∃ v r'', (analyze s' o' site' w' q').report = .ok r' ∧
      (analyze s' o' site' w' (q'.uncached p'.settings)).report = .ok r'' ∧
      r''.toValue = .ok v ∧ r'.toValue = .ok (withItem "reasoning" (.text servedLine) v) := by
  obtain ⟨hserved, v, hv, hvalue⟩ := h.served o' w'
  exact ⟨v, r, hserved, h.computed hrest o' w', hv, hvalue⟩

end Shares

section Plain

/-- A plain request that names its mode and is recorded. -/
def plainVariant (mode : Report.Mode) : Request :=
  { plainRequest "." with mode := some mode, quick := some false }

def preparedVariant (mode : Report.Mode) : Prepared :=
  { plainPrepared "." none with
    context := { (plainPrepared "." none).context with mode := some mode }
    quick := false }

/-- The site behind the analysis of a plain request about an empty repository, with a new
registry. -/
def plainAfter : Site Unit :=
  plainSite (analyze (plainSurroundings 1000) unmoved (plainSite {}) () (plainRequest ".")).site.disk

/-- Every backend is the one that refuses. -/
def refusals (_ : Text) (_ : BuildOptions) : Voice :=
  ⟨refusing.provider, refusing.model, fun _ => .error (.runtime "down")⟩

theorem speaksBy_plainSite (d : Disk) : SpeaksBy (plainSite d).registry refusals := by
  intro here name options b hb
  have hbuilt : b = refusing := by
    unfold Registry.get at hb
    dsimp only at hb
    split at hb
    · exact absurd hb (by simp)
    · next hfound => exact absurd hfound (by simp [plainSite, Registry.find?])
    · next f _ _ hfactory =>
      obtain ⟨front, back, hall, -⟩ := List.lookup_eq_some_iff.mp hfactory
      have hmem : ((Registry.Key.of name options).name, f) ∈ (plainSite d).registry.factories := by
        rw [hall]
        exact List.mem_append_right front List.mem_cons_self
      obtain ⟨-, rfl⟩ := Prod.mk.inj (List.mem_singleton.mp hmem)
      exact (Except.ok.inj hb).symm
    · exact absurd hb (by simp)
  subst hbuilt
  exact ⟨rfl, rfl, fun _ _ => rfl⟩

/-- The entry of a plain request in a repository that was empty hides and adds none of the files that
a report may ask for. -/
theorem sameFiles_entry (key : Text) (node : Node) :
    Disk.SameFiles {} (Cache.madeFolder.set [".pr-agent", "cache", entryName key] node) "." := by
  have hmissing : ∀ name ∈ reportNames, Disk.isFile {} (Text.joinPath "." name) = .ok false ∧
      (Cache.madeFolder.set [".pr-agent", "cache", entryName key] node).isFile
        (Text.joinPath "." name) = .ok false := by
    intro name hname
    simp only [reportNames, configurationNames, frameworkNames, Coverage.reportFiles, List.map_cons,
      List.map_nil, List.mem_append, List.mem_cons, List.not_mem_nil, or_false, or_assoc] at hname
    rcases hname with rfl | rfl | rfl | rfl | rfl | rfl | rfl | rfl | rfl | rfl | rfl | rfl | rfl |
      rfl | rfl | rfl | rfl <;> exact ⟨rfl, rfl⟩
  intro name hname
  obtain ⟨hbefore, hafter⟩ := hmissing name hname
  exact ⟨hafter.trans hbefore.symm, (Repository.fileText_missing hafter).trans
    (Repository.fileText_missing hbefore).symm⟩

/-- A plain request and a later one about the same repository that names its mode share a report. -/
theorem shares_plain (mode : Report.Mode) :
    ∃ r r', Shares refusals (Cache.ofRepository ".") unmoved (plainSurroundings 1000)
      (plainSurroundings 1000) (plainSite {}) plainAfter () (plainRequest ".") (plainVariant mode)
      (plainPrepared "." none) (preparedVariant mode) r r' := by
  have hprepare : prepare [] {} (plainRequest ".") = .ok (plainPrepared "." none) :=
    prepare_plain (by decide) (by rfl)
  have hmade : Disk.makeFolder {} (Cache.ofRepository ".").folder = .ok Cache.madeFolder := by rfl
  have hfolder : Cache.madeFolder.find (Cache.ofRepository ".").folder =
      .ok ([".pr-agent", "cache"], .folder) := by rfl
  have hkey : (Cache.ofRepository ".").Vacant Cache.madeFolder (plainPrepared "." none).key :=
    vacant_plain none (by decide +kernel) hfolder (by rfl)
  obtain ⟨r, hfirst, hreads⟩ := analyze_plain hprepare hmade hkey (by decide +kernel)
  obtain ⟨v, place, hv, hdisk, hfind⟩ := analyze_leaves hprepare rfl hmade hkey hfirst hreads
  have hafter : plainAfter.disk = Cache.madeFolder.set
      [".pr-agent", "cache", entryName (plainPrepared "." none).key] (Cache.entry v 1000) := by
    refine hdisk.trans ?_
    exact congrArg Prod.fst ((Cache.settled_made hmade).set_eq hmade hfolder hkey v 1000)
  have hnothing : fetchFor (plainPrepared "." none) {} 1000 = ({}, .ok none) :=
    fetchFor_vacant 1000 rfl hmade hkey
  obtain ⟨r', -, hfetch⟩ := fetchFor_entry (p := preparedVariant mode) rfl hfind hv (hreads v hv) 1000
  have hsoon : TimedMap.age (plainSurroundings 1000).now 1000 ≤ 24 * 60 * 60 :=
    soon_plain 1000 (by decide) (by decide)
  rw [if_pos hsoon] at hfetch
  refine ⟨r, r', {
    prepared := hprepare
    prepared' := ?_
    cached := rfl
    cached' := rfl
    missed := congrArg Prod.snd hnothing
    first := hfirst
    reads := hreads
    identity := rfl
    entry := ?_
    hit := congrArg Prod.snd hfetch
    repository := rfl
    files := ?_
    unscanned := rfl
    speaks := speaksBy_plainSite _
    speaks' := speaksBy_plainSite _
    built := ⟨_, refusing, rfl, get_plain _ "." none⟩ }⟩
  · rw [hafter]
    exact prepare_eq_ok_iff.mpr ⟨[], none, rfl, rfl, by rfl, rfl, rfl, rfl⟩
  · intro v' hv'
    obtain rfl := Except.ok.inj (hv.symm.trans hv')
    exact ⟨place, hfind⟩
  · rintro path hpath
    obtain rfl := Value.text.inj hpath
    have hbefore : (fetchFor (plainPrepared "." none) {} 1000).1 = {} := congrArg Prod.fst hnothing
    rw [hafter]
    exact hbefore.symm ▸ sameFiles_entry _ _

/-- Saying what would be so anyway, and asking for a recorded run, changes nothing. -/
theorem served_is_computed_plain :
    ∃ r r', Shares refusals (Cache.ofRepository ".") unmoved (plainSurroundings 1000)
        (plainSurroundings 1000) (plainSite {}) plainAfter () (plainRequest ".") (plainVariant {})
        (plainPrepared "." none) (preparedVariant {}) r r' ∧
      SameRest (plainPrepared "." none) (preparedVariant {}) ∧
      ∃ v r'', (analyze (plainSurroundings 1000) unmoved plainAfter () (plainVariant {})).report =
          .ok r' ∧
        (analyze (plainSurroundings 1000) unmoved plainAfter ()
          ((plainVariant {}).uncached (preparedVariant {}).settings)).report = .ok r'' ∧
        r''.toValue = .ok v ∧ r'.toValue = .ok (withItem "reasoning" (.text servedLine) v) := by
  have hrest : SameRest (plainPrepared "." none) (preparedVariant {}) :=
    ⟨rfl, rfl, rfl, rfl, rfl, rfl⟩
  obtain ⟨r, r', hshares⟩ := shares_plain {}
  exact ⟨r, r', hshares, hrest, served_is_computed hshares hrest unmoved ()⟩

/-- A mode of which no key tells. -/
def unsummarized : Report.Mode := { summary := .bool false }

/-- A request in another mode is served the report of the first mode. -/
theorem served_in_another_mode : ¬ ∀ (voices : Text → BuildOptions → Voice) (c : Cache)
    (o o' : Workflow.Observer Unit) (s s' : Surroundings) (site site' : Site Unit) (q q' : Request)
    (p p' : Prepared) (r r' : Report), Shares voices c o s s' site site' () q q' p p' r r' →
      ∃ v r'', (analyze s' o' site' () q').report = .ok r' ∧
        (analyze s' o' site' () (q'.uncached p'.settings)).report = .ok r'' ∧
        r''.toValue = .ok v ∧ r'.toValue = .ok (withItem "reasoning" (.text servedLine) v) := by
  intro h
  obtain ⟨r, r', hshares⟩ := shares_plain unsummarized
  obtain ⟨v, r'', -, hcomputed, hv, hvalue⟩ := h _ _ _ unmoved _ _ _ _ _ _ _ _ _ _ hshares
  -- what is served tells of the first mode
  obtain ⟨-, v₁, hv₁, hvalue₁⟩ := hshares.served unmoved ()
  have hmode₁ := mode_of_served hv₁ (mode_of_compute hshares.first_eq)
  -- what is computed tells of the second one
  rw [analyze_uncached_eq unmoved () hshares.prepared'] at hcomputed
  have hmode := mode_of_served hv (mode_of_compute hcomputed)
  rw [← Except.ok.inj (hvalue.symm.trans hvalue₁), hmode] at hmode₁
  exact absurd hmode₁ (by decide)

end Plain

end ChangeReview.Analysis

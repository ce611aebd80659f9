import ChangeReview.Proofs.Analysis.Keeping

/-!
# Asking again

An analysis that is over leaves nothing on the disk but its entry in the cache. The same request
comes to the same key from then on, as long as the path of its repository does not lead back from a
folder that is missing, and is served the report that the first one gave.
-/
namespace ChangeReview.Analysis

open Disk
open Cache (entryName Reads)

section Again

variable {σ τ : Type} {p : Prepared} {c : Cache} {r : Report} {made : Disk}

/-- What is served to the same request, soon after an analysis whose report went into the cache. -/
theorem analyze_again {s s' : Surroundings} {o o' : Workflow.Observer τ} {site : Site σ} {w w' : τ}
    {q : Request} (htree : site.disk.IsTree) (hrepository : q.GoesStraight site.disk)
    (hprepare : prepare s.environment site.disk q = .ok p) (hcache : p.cache = some c)
    (hmade : site.disk.makeFolder c.folder = .ok made)
    (habsent : made.find (c.entryPath p.key) = .error .absent)
    (hfirst : (analyze s o site w q).report = .ok r) (hreads : ∀ v, r.toValue = .ok v → Reads v)
    (henvironment : s'.environment = s.environment)
    (hsoon : TimedMap.age s.now s'.now ≤ 24 * 60 * 60) :
    ∃ v r', r.toValue = .ok v ∧
      analyze s' o' (analyze s o site w q).site w' q =
        ⟨(analyze s o site w q).site, w', {}, .ok r'⟩ ∧
      r'.toValue = .ok (withItem "reasoning" (.text servedLine) v) := by
  have hkey : c.Vacant made p.key := ⟨slash_not_mem_key p, habsent⟩
  obtain ⟨v, place, hv, hdisk, hfind⟩ := analyze_leaves hprepare hcache hmade hkey hfirst hreads
  -- the folders of the cache and the entry are no documents, so the key stays
  have hadds := (adds_makeFolder hmade).trans (adds_set hmade hkey v s.now)
  rw [← hdisk] at hadds
  obtain ⟨p', hprepare', hcache', hkey'⟩ := prepare_adds htree hadds hrepository hprepare
  rw [← henvironment] at hprepare'
  rw [← hkey'] at hfind
  obtain ⟨r', hvalue, hit⟩ := fetchFor_entry (hcache'.trans hcache) hfind hv (hreads v hv) s'.now
  rw [if_pos hsoon] at hit
  exact ⟨v, r', hv, analyze_hit o' w' hprepare' hit, hvalue⟩

end Again

/-! ## Plain requests -/

section Plain

/-- A request about an empty diff, without a scan and with the cache of its repository. -/
def plainRequest (repository : Text) : Request where
  diff := .text []
  settings := some { useCache := true }
  wantsScan := some false
  repository := .text repository

def plainPrepared (repository : Text) (docs : Option Docs.Context) : Prepared where
  settings := { useCache := true }
  context := { diff := [], wantsScan := false, docs, repository := .text repository }
  cache := some (.ofRepository repository)
  quick := true

/-- A backend that refuses every call. -/
def refusing : Backend Unit where
  provider := .text "any"
  model := .text "any"
  invoke := fun here _ => (here, .error (.runtime "down"))

/-- A disk, and the backend under the name of the default provider. -/
def plainSite (d : Disk) : Site Unit where
  disk := d
  registry := { factories := [("bedrock", fun here _ => (here, .ok refusing))] }
  here := ()

def plainSurroundings (now : Instant) : Surroundings := { now, scanner := .notInstalled }

/-- A second request is soon enough until a day has passed. -/
theorem soon_plain (now : Int) (hnow : 1000 ≤ now) (hsoon : now ≤ 1000 + 24 * 60 * 60) :
    TimedMap.age (plainSurroundings 1000).now (plainSurroundings now).now ≤ 24 * 60 * 60 := by
  have hage := @TimedMap.age_le_iff 1000 now (24 * 60 * 60) (by decide) (by omega) (by omega)
  exact_mod_cast hage.mpr hsoon

/-- One who does not care for progress. -/
def unmoved : Workflow.Observer Unit := ⟨fun watching _ => (watching, .ok ())⟩

variable {repository : Text} {docs : Option Docs.Context} {d made : Disk}

theorem prepare_plain (hrepository : repository ≠ [])
    (hdocs : docsFor d (.text repository) .null [] (some []) = .ok docs) :
    prepare [] d (plainRequest repository) = .ok (plainPrepared repository docs) := by
  refine prepare_eq_ok_iff.mpr ⟨[], docs, rfl, rfl, hdocs, ?_, rfl, rfl⟩
  cases repository with
  | nil => exact absurd rfl hrepository
  | cons c rest => rfl

theorem get_plain (d : Disk) (repository : Text) (docs : Option Docs.Context) :
    ((plainSite d).registry.get () "bedrock" (plainPrepared repository docs).backendOptions).2.2 =
      .ok refusing := by
  have hoptions : ∀ o ∈ (Registry.Key.of "bedrock" (plainPrepared repository docs).backendOptions).options,
      Registry.Key.reserved.contains o.1 = false ∧ o.2.isKey = true := by
    intro o ho
    have ho := List.mem_mergeSort.mp ho
    simp only [Prepared.backendOptions, List.mem_cons, List.not_mem_nil, or_false] at ho
    rcases ho with rfl | rfl | rfl <;> exact ⟨rfl, rfl⟩
  have hcheck : (Registry.Key.of "bedrock" (plainPrepared repository docs).backendOptions).check =
      .ok () := by
    unfold Registry.Key.check
    rw [List.find?_eq_none.mpr fun o ho => by rw [(hoptions o ho).1]; exact Bool.false_ne_true,
      List.find?_eq_none.mpr fun o ho => by rw [(hoptions o ho).2]; exact Bool.false_ne_true]
  unfold Registry.get
  dsimp only
  rw [hcheck]
  rfl

/-- A report that the run gives is that of the analysis, once the cache takes it. -/
theorem report_plain {s : Surroundings} {r : Report} {v : Value} (hv : r.toValue = .ok v)
    (hset : ((Cache.ofRepository repository).set d s.now (plainPrepared repository docs).key v).2 =
      .ok ())
    (hrun : (execute (plainPrepared repository docs) s unmoved refusing (plainSite d) ()).report =
      .ok r) :
    (compute (plainPrepared repository docs) s unmoved (plainSite d) ()).report = .ok r := by
  have hname : (plainPrepared repository docs).settings.provider = .text "bedrock" := rfl
  refine compute_report hname (get_plain d repository docs) (fun _ _ => hrun) ?_
  unfold remember
  rw [hv]
  exact hset

/-- A run whose report can be written and read again. -/
def Runs (p : Prepared) (d : Disk) : Prop :=
  ((execute p (plainSurroundings 1000) unmoved refusing (plainSite d) ()).report.toOption.bind
    fun r => r.toValue.toOption.map fun v =>
      decide (Value.parse (Value.write (.spaces 2) v) = .ok v)) = some true

instance (p : Prepared) (d : Disk) : Decidable (Runs p d) :=
  inferInstanceAs (Decidable (_ = some true))

/-- The first analysis of a plain request. -/
theorem analyze_plain (hprepare : prepare [] d (plainRequest repository) =
      .ok (plainPrepared repository docs))
    (hmade : d.makeFolder (Cache.ofRepository repository).folder = .ok made)
    (hkey : (Cache.ofRepository repository).Vacant made (plainPrepared repository docs).key)
    (hruns : Runs (plainPrepared repository docs) d) :
    ∃ r, (analyze (plainSurroundings 1000) unmoved (plainSite d) () (plainRequest repository)).report =
        .ok r ∧ ∀ v, r.toValue = .ok v → Reads v := by
  obtain ⟨r, hrun, hruns⟩ := Option.bind_eq_some_iff.mp hruns
  obtain ⟨v, hv, hreads⟩ := Option.map_eq_some_iff.mp hruns
  have hrun := eq_ok_of_toOption hrun
  have hv := eq_ok_of_toOption hv
  refine ⟨r, ?_, fun v' hv' => ?_⟩
  · obtain ⟨place, hfolder, -⟩ := (Cache.settled_made hmade).entries
    have hset := (Cache.settled_made hmade).set_eq hmade hfolder hkey v 1000
    rw [analyze_eq_compute unmoved () hprepare rfl hmade hkey]
    exact report_plain hv (congrArg Prod.snd hset) hrun
  · obtain rfl := Except.ok.inj (hv.symm.trans hv')
    unfold Reads
    exact of_decide_eq_true hreads

/-- The key of a plain request with documents of these names. -/
def plainKey (names : List Text) : Text :=
  Sha256.ofAscii (Value.writeLine (.members [
    ("arch_docs", (Value.ofTexts names).sorted),
    ("diff", .text []),
    ("framework", .null),
    ("language", .null),
    ("model", .text (defaultModel "bedrock")),
    ("provider", .text "bedrock"),
    ("static_analysis", .bool false),
    ("title", .null)]))

theorem key_plain (repository : Text) (docs : Option Docs.Context) :
    (plainPrepared repository docs).key = plainKey (documentNames docs) := by
  unfold Prepared.key Cache.key
  rw [identity_sorted]
  rfl

/-- The entry of a plain request can be in the cache of the repository. -/
def HasRoom (repository : Text) (names : List Text) : Prop :=
  (Text.toUtf8 (entryName (plainKey names))).size ≤ maxNameBytes ∧
    (route (Text.joinPath (Cache.ofRepository repository).folder
      (entryName (plainKey names)))).toOption.isSome = true

instance (repository : Text) (names : List Text) : Decidable (HasRoom repository names) :=
  inferInstanceAs (Decidable (_ ∧ _))

theorem fits_plain {names : List Text} (hroom : HasRoom repository names) :
    Fits (Cache.ofRepository repository).folder (entryName (plainKey names)) := by
  obtain ⟨hshort, hroute⟩ := hroom
  obtain ⟨r, hr⟩ := Option.isSome_iff_exists.mp hroute
  exact ⟨Cache.isName_entryName (Sha256.not_mem_hexDigest (by decide) _), Cache.entryName_ne_up _,
    hshort, r, eq_ok_of_toOption hr⟩

theorem vacant_plain (docs : Option Docs.Context) {place : Place} (hroom : HasRoom repository (documentNames docs))
    (hfolder : made.find (Cache.ofRepository repository).folder = .ok (place, .folder))
    (hnode : made.node? (place ++ [entryName (plainKey (documentNames docs))]) = none) :
    (Cache.ofRepository repository).Vacant made (plainPrepared repository docs).key := by
  refine ⟨slash_not_mem_key _, ?_⟩
  rw [key_plain, Cache.entryPath_eq, (fits_plain hroom).find_eq hfolder, hnode]

/-- A repository that was empty serves the second request, a day less a second later. -/
theorem analyze_again_plain :
    ∃ r, (analyze (plainSurroundings 1000) unmoved (plainSite {}) () (plainRequest ".")).report =
        .ok r ∧
      ∃ v r', r.toValue = .ok v ∧
        (let first := analyze (plainSurroundings 1000) unmoved (plainSite {}) () (plainRequest ".")
        analyze (plainSurroundings 87399) unmoved first.site () (plainRequest ".") =
          ⟨first.site, (), {}, .ok r'⟩) ∧
        r'.toValue = .ok (withItem "reasoning" (.text servedLine) v) := by
  have hprepare : prepare [] {} (plainRequest ".") = .ok (plainPrepared "." none) :=
    prepare_plain (by decide) (by rfl)
  have hmade : Disk.makeFolder {} (Cache.ofRepository ".").folder = .ok Cache.madeFolder := by rfl
  have hroom : HasRoom "." [] := by decide +kernel
  have hfolder : Cache.madeFolder.find (Cache.ofRepository ".").folder =
      .ok ([".pr-agent", "cache"], .folder) := by rfl
  have hkey : (Cache.ofRepository ".").Vacant Cache.madeFolder (plainPrepared "." none).key :=
    vacant_plain none hroom hfolder (by rfl)
  obtain ⟨r, hfirst, hreads⟩ := analyze_plain hprepare hmade hkey (by decide +kernel)
  have hstraight : (plainRequest ".").GoesStraight (plainSite {}).disk := by
    rintro - path hpath
    obtain rfl := Value.text.inj hpath
    exact straight_of_find (p := []) (by rfl)
  exact ⟨r, hfirst, analyze_again isTree_empty hstraight hprepare rfl hmade hkey.absent hfirst hreads
    rfl (soon_plain 87399 (by decide) (by decide))⟩

/-- A repository with one document. -/
def patternsDisk : Disk :=
  (Disk.set {} [".arch-docs"] .folder).set [".arch-docs", "patterns.md"]
    (.file (Text.toUtf8 "# Patterns\n\n## Constants\n\nKeep them at the top.\n") 0)

/-- The repository with the folder of a cache, which is reached through a folder that was missing. -/
def detourDisk : Disk :=
  ((patternsDisk.set ["build"] .folder).set [".pr-agent"] .folder).set [".pr-agent", "cache"] .folder

theorem isTree_patternsDisk : patternsDisk.IsTree := by
  have hfolderName : HasName [".arch-docs"] :=
    ⟨[], _, rfl, ⟨by decide, by decide, by decide⟩, by decide⟩
  have hfileName : HasName [".arch-docs", "patterns.md"] :=
    ⟨[".arch-docs"], _, rfl, ⟨by decide, by decide, by decide⟩, by decide⟩
  have hfolder : Disk.node? {} [".arch-docs"] = none := by rfl
  have hfile : Disk.node? (Disk.set {} [".arch-docs"] .folder) [".arch-docs", "patterns.md"] = none := by
    rfl
  have htree := isTree_empty.set (by rw [hfolder]; simp) hfolderName (by rfl) .folder
  exact htree.set (by rw [hfile]; simp) hfileName (by rfl) _

theorem makeFolder_detour :
    patternsDisk.makeFolder (Cache.ofRepository "build/..").folder = .ok detourDisk := by
  rfl

/-- Through a folder that the cache makes the second request finds a document that the first one
did not. -/
theorem docsFor_detour {d : Disk} (h : Adds Docs.NoDocument detourDisk d) :
    ∃ docs, docsFor d (.text "build/..") .null [] (some []) = .ok docs ∧
      documentNames docs = ["patterns".toList] := by
  have hfind : detourDisk.find (Docs.folderPath "build/..") = .ok ([".arch-docs"], .folder) := by rfl
  have hload := Docs.load_of_adds (isTree_patternsDisk.makeFolder makeFolder_detour) h hfind
  have hdocument : (Docs.document? detourDisk (Docs.folderPath "build/..") "patterns.md").map
      (·.filename) = some "patterns".toList := by decide +kernel
  obtain ⟨document, hdocument, hname⟩ := Option.map_eq_some_iff.mp hdocument
  have hnames : (detourDisk.namesIn [".arch-docs"]).filter (fun n => Text.endsWith n ".md") =
      ["patterns.md".toList] := by rfl
  rw [Docs.load_eq hfind, hnames, List.mergeSort_singleton, List.filterMap_cons, hdocument] at hload
  have hpresent : Docs.present d "build/.." = .ok true := by
    rw [Docs.present_eq, find_of_keeps h.keeps hfind]
  refine ⟨some (Docs.Context.build [document] none [] (some [])), ?_, congrArg (fun n => [n]) hname⟩
  rw [docsFor_text, hpresent, ok_bind, if_pos rfl, hload]
  rfl

/-- A path that leads back from a folder that is missing shows more once the cache has made the
folder, and then the same request is not served. -/
theorem analyze_again_detour : ¬ ∀ (s s' : Surroundings) (o o' : Workflow.Observer Unit)
    (site : Site Unit) (q : Request) (p : Prepared) (c : Cache) (made : Disk) (r : Report),
      site.disk.IsTree → prepare s.environment site.disk q = .ok p → p.cache = some c →
      site.disk.makeFolder c.folder = .ok made →
      made.find (c.entryPath p.key) = .error .absent → (analyze s o site () q).report = .ok r →
      (∀ v, r.toValue = .ok v → Reads v) → s'.environment = s.environment →
      TimedMap.age s.now s'.now ≤ 24 * 60 * 60 →
        ∃ v r', r.toValue = .ok v ∧
          analyze s' o' (analyze s o site () q).site () q =
            ⟨(analyze s o site () q).site, (), {}, .ok r'⟩ ∧
          r'.toValue = .ok (withItem "reasoning" (.text servedLine) v) := by
  intro h
  have hprepare : prepare [] patternsDisk (plainRequest "build/..") =
      .ok (plainPrepared "build/.." none) := prepare_plain (by decide) (by rfl)
  have hmade := makeFolder_detour
  have hroom : HasRoom "build/.." [] ∧ HasRoom "build/.." ["patterns"] := by decide +kernel
  have hfolder : detourDisk.find (Cache.ofRepository "build/..").folder =
      .ok ([".pr-agent", "cache"], .folder) := by rfl
  have hkey : (Cache.ofRepository "build/..").Vacant detourDisk (plainPrepared "build/.." none).key :=
    vacant_plain none hroom.1 hfolder (by rfl)
  obtain ⟨r, hfirst, hreads⟩ := analyze_plain hprepare hmade hkey (by decide +kernel)
  obtain ⟨v, r', hv, hagain, -⟩ := h (plainSurroundings 1000) (plainSurroundings 1000) unmoved unmoved
    (plainSite patternsDisk) (plainRequest "build/..") _ _ _ r isTree_patternsDisk hprepare rfl hmade
    hkey.absent hfirst hreads rfl (soon_plain 1000 (by decide) (by decide))
  -- the first analysis leaves the folders of the cache and one entry
  have hcompute : analyze (plainSurroundings 1000) unmoved (plainSite patternsDisk) ()
      (plainRequest "build/..") = compute (plainPrepared "build/.." none) (plainSurroundings 1000)
        unmoved (plainSite patternsDisk) () := analyze_eq_compute unmoved () hprepare rfl hmade hkey
  rw [hcompute] at hfirst hagain
  obtain ⟨v₁, hv₁, hdisk⟩ := compute_eq_ok rfl hfirst
  obtain ⟨d, hset, hkept⟩ := (Cache.settled_made hmade).set hmade hkey (hreads v₁ hv₁) 1000
  have hadds := adds_set hmade hkey v₁ 1000
  have hdisk : (compute (plainPrepared "build/.." none) (plainSurroundings 1000) unmoved
      (plainSite patternsDisk) ()).site.disk = d := hdisk.trans (congrArg Prod.fst hset)
  rw [hset] at hadds
  generalize (compute (plainPrepared "build/.." none) (plainSurroundings 1000) unmoved
      (plainSite patternsDisk) ()).site = site at hagain hdisk
  subst hdisk
  -- so the second one comes to another key, and puts a second entry there
  obtain ⟨docs, hdocs, hnames⟩ := docsFor_detour hadds
  have hkey' : (Cache.ofRepository "build/..").Vacant detourDisk
      (plainPrepared "build/.." docs).key := by
    refine vacant_plain docs ?_ hfolder ?_
    · rw [hnames]
      exact hroom.2
    · rw [hnames]
      rfl
  have hother : (plainPrepared "build/.." docs).key ≠ (plainPrepared "build/.." none).key := by
    rw [key_plain, key_plain, hnames]
    decide +kernel
  obtain ⟨place, hfolder', -⟩ := hkept.entries
  have habsent : site.disk.find ((Cache.ofRepository "build/..").entryPath
      (plainPrepared "build/.." docs).key) = .error .absent := by
    obtain ⟨q, hfind⟩ := hkept.find hkey'
    rwa [TimedMap.put, Function.update_of_ne hother] at hfind
  have hvacant : (Cache.ofRepository "build/..").Vacant site.disk
      (plainPrepared "build/.." docs).key := ⟨slash_not_mem_key _, habsent⟩
  have hcompute' : analyze (plainSurroundings 1000) unmoved site () (plainRequest "build/..") =
      compute (plainPrepared "build/.." docs) (plainSurroundings 1000) unmoved site () :=
    analyze_eq_compute unmoved () (prepare_plain (by decide) hdocs) rfl
      (makeFolder_of_find hfolder') hvacant
  rw [hcompute'] at hagain
  exact compute_disk_ne rfl hfolder' hvacant (congrArg Ended.report hagain)
    (congrArg (fun e => e.site.disk) hagain)

end Plain

end ChangeReview.Analysis

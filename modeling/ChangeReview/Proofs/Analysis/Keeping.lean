import ChangeReview.Analysis.Run
import ChangeReview.Proofs.Analysis.Preparation
import ChangeReview.Proofs.Cache.TimedMap

/-!
# Keeping and serving reports

What an analysis leaves behind: a report in the cache, if it has one, and nothing else on the disk.
What the cache has under the key of a request is served for a day, with one more line of reasoning;
otherwise the run takes place.
-/
namespace ChangeReview.Analysis

open Disk
open Cache (entryName Reads)

/-! ## The served report -/

/-- A list with one more item at its end. -/
def appended (item : Value) : Value → Value
  | .list items => .list (items ++ [item])
  | v => v

/-- An object with one more item at the end of the list under a key. -/
def withItem (key : Text) (item : Value) : Value → Value
  | .object members =>
    .object (members.map fun m => if m.1 = key then (m.1, appended item m.2) else m)
  | v => v

theorem withItem_members (ms : List (String × Value)) (key : String) (item : Value) :
    withItem key.toList item (.members ms) =
      .members (ms.map fun m => if m.1 = key then (m.1, appended item m.2) else m) := by
  unfold Value.members withItem
  dsimp only
  rw [List.map_map, List.map_map]
  congr 1
  refine List.map_congr_left fun m _ => ?_
  obtain ⟨name, v⟩ := m
  by_cases hname : name = key
  · subst hname
    simp
  · have hlist : name.toList ≠ key.toList := fun h => hname (String.toList_injective h)
    simp [hname, hlist]

/-- The sections of a report come under other names than its reasoning. -/
theorem sectionMembers_ne (r : Report) : ∀ m ∈ r.sectionMembers, m.1 ≠ "reasoning" := by
  have hnone : r.sectionMembers.lookup "reasoning" = none := by
    simp [Report.sectionMembers, List.lookup_append]
  intro m hm heq
  have hne := List.lookup_eq_none_iff.mp hnone m hm
  rw [heq] at hne
  exact absurd hne (by simp)

/-- The object of a served report has one more line of reasoning. -/
theorem toMembers_served (r : Report) (mode : Report.Mode) (cost : Value) :
    .members ((served r).toMembers mode cost) =
      withItem "reasoning" (.text servedLine) (.members (r.toMembers mode cost)) := by
  have hsections : (r.sectionMembers.map fun m =>
      if m.1 = "reasoning" then (m.1, appended (.text servedLine) m.2) else m) =
        r.sectionMembers := by
    refine (List.map_congr_left fun m hm => ?_).trans (List.map_id _)
    rw [if_neg (sectionMembers_ne r m hm)]
    rfl
  rw [withItem_members, Report.toMembers_eq, Report.toMembers_eq, List.map_append, hsections]
  rfl

theorem toValue_served {r : Report} {v : Value} (h : r.toValue = .ok v) :
    ∃ r', Report.ofValue v = .ok r' ∧
      (served r').toValue = .ok (withItem "reasoning" (.text servedLine) v) := by
  obtain ⟨mode, cost, -, hcost, rfl⟩ := (Report.toValue_eq_ok_iff r v).mp h
  refine ⟨_, Report.ofValue_toMembers r mode cost, ?_⟩
  refine (Report.toValue_eq_ok_iff _ _).mpr ⟨mode, cost, rfl, Report.roundCost_roundCost hcost, ?_⟩
  exact (toMembers_served r mode cost).symm

/-! ## What an analysis leaves on the disk -/

section Disks

variable {σ τ : Type} {p : Prepared} {c : Cache} {r : Report}

theorem execute_disk (p : Prepared) (s : Surroundings) (o : Workflow.Observer τ) (b : Backend σ)
    (site : Site σ) (w : τ) : (execute p s o b site w).site.disk = site.disk := by
  unfold execute
  dsimp only
  split <;> rfl

/-- A report that has been kept is that of the run, and it has been stored. -/
theorem kept_inv {s : Surroundings} {e : Ended σ τ} (h : (kept p s e).report = .ok r) :
    e.report = .ok r ∧ (remember p e.site.disk s.now r).2 = .ok () ∧
      (kept p s e).site.disk = (remember p e.site.disk s.now r).1 := by
  unfold kept at h ⊢
  cases hreport : e.report with
  | error fault =>
    rw [hreport] at h
    exact absurd (hreport.symm.trans h) (by simp)
  | ok r' =>
    rw [hreport] at h
    dsimp only at h ⊢
    cases hstored : (remember p e.site.disk s.now r').2 with
    | error fault =>
      rw [hstored] at h
      exact absurd h (by simp [Except.map])
    | ok done =>
      rw [hstored] at h
      obtain rfl := Except.ok.inj h
      exact ⟨rfl, hstored, rfl⟩

/-- A report that has been computed is that of a run over the backend that the settings name. -/
theorem compute_inv {s : Surroundings} {o : Workflow.Observer τ} {site : Site σ} {w : τ}
    (h : (compute p s o site w).report = .ok r) :
    ∃ name b registry here, p.settings.provider = .text name ∧
      (site.registry.get site.here name p.backendOptions).2.2 = .ok b ∧
      (execute p s o b { site with registry, here } w).report = .ok r ∧
      (compute p s o site w).site.disk = (remember p site.disk s.now r).1 ∧
      (remember p site.disk s.now r).2 = .ok () := by
  unfold compute at h ⊢
  cases hprovider : p.settings.provider with
  | text name =>
    rw [hprovider] at h
    dsimp only at h ⊢
    cases hbuilt : (site.registry.get site.here name p.backendOptions).2.2 with
    | error fault =>
      rw [hbuilt] at h
      exact absurd h (by simp)
    | ok b =>
      rw [hbuilt] at h
      obtain ⟨hrun, hstored, hdisk⟩ := kept_inv h
      rw [execute_disk] at hstored hdisk
      exact ⟨name, b, _, _, rfl, hbuilt, hrun, hdisk, hstored⟩
  | null | bool b | int n | float x | list items | object members =>
    rw [hprovider] at h
    exact absurd h (by simp)

/-- An analysis with a cache puts the object of its report there. -/
theorem compute_eq_ok {s : Surroundings} {o : Workflow.Observer τ} {site : Site σ} {w : τ}
    (hcache : p.cache = some c) (h : (compute p s o site w).report = .ok r) :
    ∃ v, r.toValue = .ok v ∧
      (compute p s o site w).site.disk = (c.set site.disk s.now p.key v).1 := by
  obtain ⟨name, b, registry, here, -, -, -, hdisk, hstored⟩ := compute_inv h
  rw [hdisk]
  unfold remember at hstored ⊢
  rw [hcache] at hstored ⊢
  cases hvalue : r.toValue with
  | error fault =>
    rw [hvalue] at hstored
    exact absurd hstored (by simp)
  | ok v => exact ⟨v, rfl, rfl⟩

/-- The report of a run over the backend that the settings name, once it has been put where it is to
be kept. -/
theorem compute_report {s : Surroundings} {o : Workflow.Observer τ} {site : Site σ} {w : τ}
    {name : Text} {b : Backend σ} (hname : p.settings.provider = .text name)
    (hbuilt : (site.registry.get site.here name p.backendOptions).2.2 = .ok b)
    (hrun : ∀ registry here, (execute p s o b { site with registry, here } w).report = .ok r)
    (hkept : (remember p site.disk s.now r).2 = .ok ()) : (compute p s o site w).report = .ok r := by
  unfold compute
  rw [hname]
  dsimp only
  generalize site.registry.get site.here name p.backendOptions = got at hbuilt ⊢
  obtain ⟨registry, here, built⟩ := got
  obtain rfl : built = .ok b := hbuilt
  dsimp only
  unfold kept
  rw [hrun registry here]
  dsimp only
  rw [execute_disk, hkept]
  rfl

/-! ## Disks stay trees -/

theorem isTree_attempt {d : Disk} (hd : d.IsTree) (path : Text) {result : Except PathFault Disk}
    (h : ∀ d', result = .ok d' → d'.IsTree) : (Cache.attempt d path result).1.IsTree := by
  unfold Cache.attempt
  split
  · exact h _ rfl
  · exact hd
  · exact hd

theorem isTree_set {d : Disk} (hd : d.IsTree) (c : Cache) (now : Instant) (key : Text) (v : Value) :
    (c.set d now key v).1.IsTree := by
  unfold Cache.set Cache.put
  cases hmade : d.makeFolder c.folder with
  | error fault => exact isTree_attempt hd _ fun _ h => absurd h (by simp)
  | ok e =>
    have he := hd.makeFolder hmade
    exact isTree_attempt he _ fun _ h => he.write h

theorem isTree_get {d : Disk} (hd : d.IsTree) (c : Cache) (now : Instant) (key : Text) (life : Value) :
    (c.get d now key life).1.IsTree := by
  unfold Cache.get
  repeat' split
  all_goals first | exact hd | exact hd.removeBelow _

theorem isTree_fetchFor {d : Disk} (hd : d.IsTree) (p : Prepared) (now : Instant) :
    (fetchFor p d now).1.IsTree := by
  unfold fetchFor
  split
  · next c _ =>
    have hget := isTree_get hd c now p.key Cache.defaultLife
    unfold fetch
    generalize c.get d now p.key Cache.defaultLife = got at hget ⊢
    obtain ⟨e, fault | _ | v⟩ := got
    · exact hget
    · exact hget
    · dsimp only
      split <;> exact hget
  · exact hd

theorem isTree_compute {site : Site σ} (hd : site.disk.IsTree) (p : Prepared) (s : Surroundings)
    (o : Workflow.Observer τ) (w : τ) : (compute p s o site w).site.disk.IsTree := by
  have hremember : ∀ r, (remember p site.disk s.now r).1.IsTree := by
    intro r
    unfold remember
    split
    · exact hd
    · exact isTree_set hd _ _ _ _
    · exact hd
  have hkept : ∀ e : Ended σ τ, e.site.disk = site.disk → (kept p s e).site.disk.IsTree := by
    intro e he
    unfold kept
    split
    · rwa [he]
    · next r _ =>
      show (remember p e.site.disk s.now r).1.IsTree
      rw [he]
      exact hremember r
  unfold compute
  cases p.settings.provider with
  | text name =>
    dsimp only
    split
    · exact hd
    · exact hkept _ (execute_disk ..)
  | null | bool b | int n | float x | list items | object members => exact hd

/-- An analysis leaves a tree where it found one, whatever comes of it. -/
theorem isTree_analyze {site : Site σ} (hd : site.disk.IsTree) (s : Surroundings)
    (o : Workflow.Observer τ) (w : τ) (q : Request) : (analyze s o site w q).site.disk.IsTree := by
  unfold analyze
  split
  · exact hd
  · next p _ =>
    have hfetched := isTree_fetchFor hd p s.now
    generalize fetchFor p site.disk s.now = fetched at hfetched ⊢
    obtain ⟨d, fault | _ | r⟩ := fetched
    · exact hfetched
    · exact isTree_compute hfetched p s o w
    · exact hfetched

/-! ## The second analysis -/

variable {made : Disk}

/-- Where the cache gives nothing for a request, its run takes place. -/
theorem analyze_missed {s : Surroundings} (o : Workflow.Observer τ) {site : Site σ} (w : τ)
    {q : Request} (hprepare : prepare s.environment site.disk q = .ok p)
    (hmissed : (fetchFor p site.disk s.now).2 = .ok none) :
    analyze s o site w q =
      compute p s o { site with disk := (fetchFor p site.disk s.now).1 } w := by
  unfold analyze
  rw [hprepare]
  dsimp only
  generalize fetchFor p site.disk s.now = fetched at hmissed ⊢
  obtain ⟨d, result⟩ := fetched
  obtain rfl : result = .ok none := hmissed
  rfl

/-- A cache that has no entry for a request gives nothing, and stays as it is. -/
theorem fetchFor_vacant {d : Disk} (now : Instant) (hcache : p.cache = some c)
    (hmade : d.makeFolder c.folder = .ok made) (hkey : c.Vacant made p.key) :
    fetchFor p d now = (d, .ok none) := by
  unfold fetchFor fetch
  rw [hcache]
  dsimp only
  rw [Cache.defaultLife, Cache.get_start hmade hkey]

theorem analyze_eq_compute {s : Surroundings} (o : Workflow.Observer τ) {site : Site σ} (w : τ)
    {q : Request} (hprepare : prepare s.environment site.disk q = .ok p) (hcache : p.cache = some c)
    (hmade : site.disk.makeFolder c.folder = .ok made) (hkey : c.Vacant made p.key) :
    analyze s o site w q = compute p s o site w := by
  have hnothing := fetchFor_vacant s.now hcache hmade hkey
  rw [analyze_missed o w hprepare (congrArg Prod.snd hnothing), hnothing]

/-- An entry of a cache is no document. -/
theorem noDocument_entryName (key : Text) : Docs.NoDocument (entryName key) := by
  have hend : (entryName key).reverse = "nosj.".toList ++ key.reverse := by
    simp [entryName]
  unfold Docs.NoDocument Text.endsWith List.isSuffixOf
  rw [hend]
  rfl

/-- An entry that is put where nothing stood adds no document. -/
theorem adds_set {d : Disk} {key : Text} (hmade : d.makeFolder c.folder = .ok made)
    (hkey : c.Vacant made key) (v : Value) (now : Instant) :
    Adds Docs.NoDocument made (c.set d now key v).1 := by
  have hsettled := Cache.settled_made hmade
  obtain ⟨place, hfolder, -⟩ := hsettled.entries
  obtain ⟨hfits, hnode, -⟩ := hsettled.not_folder hfolder hkey
  rw [hsettled.set_eq hmade hfolder hkey v now]
  refine Adds.set hnode ⟨place, _, rfl, hfits.isName, hfits.notUp⟩ _ (.inr ?_)
  exact ⟨_, List.getLast?_concat .., noDocument_entryName key⟩

/-- An analysis that has run leaves an entry where there was none. -/
theorem compute_disk_ne {s : Surroundings} {o : Workflow.Observer τ} {site : Site σ} {w : τ}
    {place : Place} (hcache : p.cache = some c)
    (hfolder : site.disk.find c.folder = .ok (place, .folder)) (hkey : c.Vacant site.disk p.key)
    (h : (compute p s o site w).report = .ok r) :
    (compute p s o site w).site.disk ≠ site.disk := by
  have hmade := makeFolder_of_find hfolder
  have hsettled := Cache.settled_made hmade
  obtain ⟨hfits, hnode, -⟩ := hsettled.not_folder hfolder hkey
  obtain ⟨v, -, hdisk⟩ := compute_eq_ok hcache h
  intro hsame
  rw [hsame, hsettled.set_eq hmade hfolder hkey] at hdisk
  dsimp only at hdisk
  have hnew := node?_set site.disk (hfits.isGiven place) (Cache.entry v s.now)
    (place ++ [entryName p.key])
  rw [if_pos rfl, ← hdisk, hnode] at hnew
  exact absurd hnew (by simp [TimedMap.empty])

/-- What an analysis leaves under its key in a cache that had nothing there. -/
theorem analyze_leaves {s : Surroundings} {o : Workflow.Observer τ} {site : Site σ} {w : τ}
    {q : Request} (hprepare : prepare s.environment site.disk q = .ok p) (hcache : p.cache = some c)
    (hmade : site.disk.makeFolder c.folder = .ok made) (hkey : c.Vacant made p.key)
    (h : (analyze s o site w q).report = .ok r) (hreads : ∀ v, r.toValue = .ok v → Reads v) :
    ∃ v place, r.toValue = .ok v ∧
      (analyze s o site w q).site.disk = (c.set site.disk s.now p.key v).1 ∧
      (analyze s o site w q).site.disk.find (c.entryPath p.key) =
        .ok (place, Cache.entry v s.now) := by
  rw [analyze_eq_compute o w hprepare hcache hmade hkey] at h ⊢
  obtain ⟨v, hv, hdisk⟩ := compute_eq_ok hcache h
  obtain ⟨d, hset, hkept⟩ := (Cache.settled_made hmade).set hmade hkey (hreads v hv) s.now
  obtain ⟨place, hfind⟩ := hkept.find hkey
  rw [TimedMap.put, Function.update_self] at hfind
  refine ⟨v, place ++ [entryName p.key], hv, hdisk, ?_⟩
  rw [hdisk, hset]
  exact hfind

/-- What is under the key of a request is served for a day, with one more line of reasoning. -/
theorem fetchFor_entry {d : Disk} {place : Place} {v : Value} {written : Instant}
    (hcache : p.cache = some c)
    (hfind : d.find (c.entryPath p.key) = .ok (place, Cache.entry v written))
    (hv : r.toValue = .ok v) (hreads : Reads v) (now : Instant) :
    ∃ r', r'.toValue = .ok (withItem "reasoning" (.text servedLine) v) ∧
      fetchFor p d now =
        if TimedMap.age written now ≤ 24 * 60 * 60 then (d, .ok (some r'))
        else (d.removeBelow place, .ok none) := by
  obtain ⟨r', hread, hserved⟩ := toValue_served hv
  have hobject : v ≠ .null := by
    obtain ⟨mode, cost, -, -, rfl⟩ := (Report.toValue_eq_ok_iff r v).mp hv
    simp [Value.members]
  refine ⟨served r', hserved, ?_⟩
  unfold fetchFor fetch
  rw [hcache]
  dsimp only
  by_cases hyoung : TimedMap.age written now ≤ 24 * 60 * 60
  · have hget : c.get d now p.key Cache.defaultLife = (d, .ok (some v)) := by
      rw [← (Cache.stored_eq_some_iff v v).mpr ⟨rfl, hobject⟩]
      exact Cache.get_entry hfind hreads (by exact_mod_cast hyoung)
    rw [hget, if_pos hyoung]
    dsimp only
    rw [hread]
  · have hget : c.get d now p.key Cache.defaultLife = (d.removeBelow place, .ok none) := by
      refine (Cache.get_of_find hfind _).trans (if_pos ?_)
      exact_mod_cast Rat.not_le.mp hyoung
    rw [hget, if_neg hyoung]

/-- A request that is served a report gets it from the cache, and changes nothing. -/
theorem analyze_hit {s : Surroundings} (o : Workflow.Observer τ) {site : Site σ} (w : τ)
    {q : Request} (hprepare : prepare s.environment site.disk q = .ok p)
    (hit : fetchFor p site.disk s.now = (site.disk, .ok (some r))) :
    analyze s o site w q = ⟨site, w, {}, .ok r⟩ := by
  unfold analyze
  rw [hprepare]
  dsimp only
  rw [hit]

end Disks

end ChangeReview.Analysis

import ChangeReview.Docs.Context
import ChangeReview.Proofs.Order.StableSort
import Mathlib.Data.Finset.Card
import Mathlib.Data.List.Dedup

/-!
# The sections of a context

The candidates for a context are the best sections of each term and the first sections of the key
documents, each under its name and with its best relevance. The context holds the most relevant of
them in order of relevance, and those of equal relevance in the order of their first discovery.
-/
namespace ChangeReview.Docs

/-- What tells the sections of a context apart. -/
def Relevant.key (r : Relevant) : Text × Text := (r.filename, r.heading)

/-- The best sections of each term, as often as a term has them among its best. -/
def retrieved (docs : List Document) (terms : List Text) : List Ranked :=
  terms.flatMap fun term => search docs term perKeyword

/-- The first sections of the key documents that are there. -/
def keySections (docs : List Document) : List Ranked := keyDocuments.filterMap (keySection? docs)

/-- The names of all candidates in the order of discovery, as often as they are discovered. -/
def discovered (docs : List Document) (terms : List Text) : List (Text × Text) :=
  (retrieved docs terms ++ keySections docs).map Ranked.key

/-- The best relevance that a section has for a term, or that of a key document's section. -/
def bestRelevance (docs : List Document) (terms : List Text) (key : Text × Text) : Nat :=
  (((retrieved docs terms).filter fun r => r.key = key).map Ranked.relevance).max?.getD keyRelevance

/-- The section is among the first for a term: fewer hits than the limit are more relevant, or as
relevant and in front of it. -/
def IsAmongFirst (limit : Nat) (docs : List Document) (term : Text) (r : Ranked) : Prop :=
  ∃ i, (hits docs term)[i]? = some r ∧
    (hits docs term).zipIdx.countP (fun q =>
      r.relevance < q.1.relevance ∨ (q.1.relevance = r.relevance ∧ q.2 < i)) < limit

namespace Ranked

/-! ## Sorting -/

theorem sort_trans (a b c : Ranked) (h : decide (b.relevance ≤ a.relevance) = true)
    (h' : decide (c.relevance ≤ b.relevance) = true) : decide (c.relevance ≤ a.relevance) = true :=
  decide_eq_true (Nat.le_trans (of_decide_eq_true h') (of_decide_eq_true h))

theorem sort_total (a b : Ranked) :
    (decide (b.relevance ≤ a.relevance) || decide (a.relevance ≤ b.relevance)) = true := by
  simpa using Nat.le_total b.relevance a.relevance

theorem sort_nil : sort [] = [] := List.mergeSort_nil

theorem mem_sort {rs : List Ranked} {r : Ranked} : r ∈ sort rs ↔ r ∈ rs := List.mem_mergeSort

theorem length_sort (rs : List Ranked) : (sort rs).length = rs.length := List.length_mergeSort rs

theorem sort_perm (rs : List Ranked) : (sort rs).Perm rs := List.mergeSort_perm _ _

/-- The relevance falls, and where it does not the order stays. -/
theorem pairwise_sort {R : Ranked → Ranked → Prop} {rs : List Ranked} (h : rs.Pairwise R) :
    (sort rs).Pairwise fun a b =>
      b.relevance < a.relevance ∨ (b.relevance = a.relevance ∧ R a b) := by
  refine (Order.pairwise_mergeSort_stable sort_trans sort_total h).imp fun {a b} hab => ?_
  simp only [decide_eq_true_eq] at hab
  rcases Nat.lt_or_eq_of_le hab.1 with hlt | heq
  · exact .inl hlt
  · exact .inr ⟨heq, hab.2 (Nat.le_of_eq heq.symm)⟩

end Ranked

/-- A search finds the first sections for its query. -/
theorem mem_search_iff {docs : List Document} {term : Text} {r : Ranked} (limit : Nat) :
    r ∈ search docs term limit ↔ IsAmongFirst limit docs term r := by
  have htake : search docs term limit = (Ranked.sort (hits docs term)).take limit := rfl
  rw [htake, Ranked.sort, Order.mem_take_mergeSort Ranked.sort_trans Ranked.sort_total]
  refine exists_congr fun i => and_congr_right fun _ => ?_
  have hcount : ∀ q : Ranked × Nat,
      Order.precedes (fun a b => decide (b.relevance ≤ a.relevance)) q (r, i) =
        decide (r.relevance < q.1.relevance ∨ (q.1.relevance = r.relevance ∧ q.2 < i)) := by
    intro q
    rw [Bool.eq_iff_iff]
    simp only [Order.precedes, Bool.and_eq_true, Bool.or_eq_true, Bool.not_eq_true',
      decide_eq_true_eq, decide_eq_false_iff_not]
    omega
  rw [funext hcount]

/-! ## Collecting candidates -/

/-- The names of some sections and a further one, in the order of their first discovery. -/
def addName (names : List (Text × Text)) (name : Text × Text) : List (Text × Text) :=
  if name ∈ names then names else names ++ [name]

section Collect

variable {seen rs : List Ranked} {r q : Ranked}

theorem keys_enter : (r.enter rs).map Ranked.key = addName (rs.map Ranked.key) r.key := by
  induction rs with
  | nil => rfl
  | cons q rs ih =>
    unfold Ranked.enter
    by_cases hkey : q.key = r.key
    · have hnew : (if q.relevance < r.relevance then r else q).key = q.key := by
        split
        · exact hkey.symm
        · rfl
      have hmem : r.key ∈ (q :: rs).map Ranked.key := by simp [hkey]
      rw [if_pos hkey, List.map_cons, hnew, addName, if_pos hmem, List.map_cons]
    · rw [if_neg hkey, List.map_cons, ih, List.map_cons, addName, addName]
      by_cases hmem : r.key ∈ rs.map Ranked.key
      · rw [if_pos hmem, if_pos (List.mem_cons_of_mem _ hmem)]
      · rw [if_neg hmem, if_neg (List.not_mem_cons_of_ne_of_not_mem (Ne.symm hkey) hmem),
          List.cons_append]

theorem keys_addKey : (addKey rs r).map Ranked.key = addName (rs.map Ranked.key) r.key := by
  have hany : (rs.any fun q => q.key = r.key) = true ↔ r.key ∈ rs.map Ranked.key := by simp
  unfold addKey addName
  by_cases hmem : r.key ∈ rs.map Ranked.key
  · rw [if_pos (hany.mpr hmem), if_pos hmem]
  · rw [if_neg (mt hany.mp hmem), if_neg hmem, List.map_append, List.map_singleton]

theorem mem_enter (h : q ∈ r.enter rs) : q = r ∨ q ∈ rs := by
  induction rs with
  | nil => exact .inl (List.mem_singleton.mp h)
  | cons p rs ih =>
    unfold Ranked.enter at h
    split at h
    · rcases List.mem_cons.mp h with rfl | h
      · split
        · exact .inl rfl
        · exact .inr List.mem_cons_self
      · exact .inr (List.mem_cons_of_mem p h)
    · rcases List.mem_cons.mp h with rfl | h
      · exact .inr List.mem_cons_self
      · exact (ih h).imp_right (List.mem_cons_of_mem p)

/-- What is entered is there at least as relevant. -/
theorem exists_mem_enter_self (r : Ranked) (rs : List Ranked) :
    ∃ p ∈ r.enter rs, p.key = r.key ∧ r.relevance ≤ p.relevance := by
  induction rs with
  | nil => exact ⟨r, List.mem_singleton_self r, rfl, Nat.le_refl _⟩
  | cons q rs ih =>
    unfold Ranked.enter
    by_cases hkey : q.key = r.key
    · rw [if_pos hkey]
      refine ⟨_, List.mem_cons_self, ?_⟩
      split
      · exact ⟨rfl, Nat.le_refl _⟩
      · next hle => exact ⟨hkey, Nat.le_of_not_lt hle⟩
    · rw [if_neg hkey]
      obtain ⟨p, hp, hpr⟩ := ih
      exact ⟨p, List.mem_cons_of_mem q hp, hpr⟩

/-- What is there stays there at least as relevant. -/
theorem exists_mem_enter_of_mem (r : Ranked) (h : q ∈ rs) :
    ∃ p ∈ r.enter rs, p.key = q.key ∧ q.relevance ≤ p.relevance := by
  induction rs with
  | nil => exact absurd h List.not_mem_nil
  | cons t rs ih =>
    unfold Ranked.enter
    by_cases hkey : t.key = r.key
    · rw [if_pos hkey]
      rcases List.mem_cons.mp h with rfl | h
      · refine ⟨_, List.mem_cons_self, ?_⟩
        split
        · next hlt => exact ⟨hkey.symm, Nat.le_of_lt hlt⟩
        · exact ⟨rfl, Nat.le_refl _⟩
      · exact ⟨q, List.mem_cons_of_mem _ h, rfl, Nat.le_refl _⟩
    · rw [if_neg hkey]
      rcases List.mem_cons.mp h with rfl | h
      · exact ⟨q, List.mem_cons_self, rfl, Nat.le_refl _⟩
      · obtain ⟨p, hp, hpq⟩ := ih h
        exact ⟨p, List.mem_cons_of_mem t hp, hpq⟩

end Collect

/-! ## The order of first discovery -/

/-- The names are those of a history, each once and in the order of its first discovery. -/
structure IsDiscovery (history names : List (Text × Text)) : Prop where
  mem : ∀ name, name ∈ names ↔ name ∈ history
  order : names.Pairwise fun a b => history.idxOf a < history.idxOf b

namespace IsDiscovery

variable {history names : List (Text × Text)}

theorem nil : IsDiscovery [] [] := ⟨fun _ => Iff.rfl, .nil⟩

theorem nodup (h : IsDiscovery history names) : names.Nodup :=
  h.order.imp fun hlt heq => absurd (heq ▸ hlt) (Nat.lt_irrefl _)

/-- Adding a name adds to the history. -/
theorem addName (h : IsDiscovery history names) (name : Text × Text) :
    IsDiscovery (history ++ [name]) (addName names name) := by
  have hold : names.Pairwise fun a b =>
      (history ++ [name]).idxOf a < (history ++ [name]).idxOf b := by
    refine h.order.imp_of_mem fun ha hb hlt => ?_
    rwa [List.idxOf_append_of_mem ((h.mem _).mp ha), List.idxOf_append_of_mem ((h.mem _).mp hb)]
  unfold Docs.addName
  by_cases hname : name ∈ names
  · rw [if_pos hname]
    refine ⟨fun k => ?_, hold⟩
    rw [List.mem_append, List.mem_singleton, h.mem k]
    exact ⟨.inl, fun hk => hk.elim id fun hk => hk ▸ (h.mem name).mp hname⟩
  · rw [if_neg hname]
    have hnew : name ∉ history := mt (h.mem name).mpr hname
    refine ⟨fun k => by rw [List.mem_append, List.mem_append, h.mem k], ?_⟩
    refine List.pairwise_append.mpr ⟨hold, List.pairwise_singleton _ _, fun a ha b hb => ?_⟩
    obtain rfl := List.mem_singleton.mp hb
    have hlt : history.idxOf a < history.length := List.idxOf_lt_length_of_mem ((h.mem a).mp ha)
    rw [List.idxOf_append_of_mem ((h.mem a).mp ha), List.idxOf_append_of_notMem hnew]
    exact Nat.lt_of_lt_of_le hlt (Nat.le_add_right _ _)

/-- Adding sections one by one keeps their names in the order of first discovery. -/
theorem foldl {step : List Ranked → Ranked → List Ranked}
    (hstep : ∀ rs r, (step rs r).map Ranked.key = Docs.addName (rs.map Ranked.key) r.key)
    (more : List Ranked) {history : List (Text × Text)} {rs : List Ranked}
    (h : IsDiscovery history (rs.map Ranked.key)) :
    IsDiscovery (history ++ more.map Ranked.key) ((more.foldl step rs).map Ranked.key) := by
  induction more generalizing history rs with
  | nil => simpa using h
  | cons r more ih =>
    have hnext := h.addName r.key
    rw [← hstep] at hnext
    rw [List.foldl_cons, List.map_cons, List.append_cons]
    exact ih hnext

end IsDiscovery

section Candidates

variable (docs : List Document) (terms : List Text)

theorem isDiscovery_found :
    IsDiscovery ((retrieved docs terms).map Ranked.key) ((found docs terms).map Ranked.key) := by
  have hnil : IsDiscovery [] ([].map Ranked.key) := .nil
  exact hnil.foldl (fun _ _ => keys_enter) (retrieved docs terms)

theorem isDiscovery_candidates :
    IsDiscovery (discovered docs terms) ((candidates docs terms).map Ranked.key) := by
  rw [discovered, List.map_append]
  exact (isDiscovery_found docs terms).foldl (fun _ _ => keys_addKey) (keySections docs)

/-! ## The best relevance -/

/-- The candidates are sections that were seen, and the best of those of their name. -/
theorem foldl_enter (seen : List Ranked) :
    (∀ r ∈ seen.foldl (fun rs r => r.enter rs) [], r ∈ seen) ∧
      ∀ s ∈ seen, ∃ r ∈ seen.foldl (fun rs r => r.enter rs) [],
        r.key = s.key ∧ s.relevance ≤ r.relevance := by
  induction seen using List.reverseRecOn with
  | nil => exact ⟨fun r hr => hr, fun s hs => absurd hs List.not_mem_nil⟩
  | append_singleton seen r ih =>
    obtain ⟨hsubset, hcovers⟩ := ih
    rw [List.foldl_append, List.foldl_cons, List.foldl_nil]
    constructor
    · intro q hq
      rcases mem_enter hq with rfl | hq
      · exact List.mem_append_right _ (List.mem_singleton_self q)
      · exact List.mem_append_left _ (hsubset q hq)
    · intro s hs
      rcases List.mem_append.mp hs with hs | hs
      · obtain ⟨q, hq, hkey, hle⟩ := hcovers s hs
        obtain ⟨p, hp, hkey', hle'⟩ := exists_mem_enter_of_mem r hq
        exact ⟨p, hp, hkey'.trans hkey, Nat.le_trans hle hle'⟩
      · obtain rfl := List.mem_singleton.mp hs
        exact exists_mem_enter_self s _

variable {docs terms}

theorem relevance_of_mem_found {r : Ranked} (h : r ∈ found docs terms) :
    r.relevance = bestRelevance docs terms r.key := by
  obtain ⟨hsubset, hcovers⟩ := foldl_enter (retrieved docs terms)
  have hbest : (((retrieved docs terms).filter fun s => s.key = r.key).map Ranked.relevance).max? =
      some r.relevance := by
    refine List.max?_eq_some_iff.mpr ⟨?_, ?_⟩
    · have hmem : r ∈ (retrieved docs terms).filter fun s => s.key = r.key :=
        List.mem_filter.mpr ⟨hsubset r h, decide_eq_true rfl⟩
      exact List.mem_map_of_mem hmem
    · intro n hn
      obtain ⟨s, hs, rfl⟩ := List.mem_map.mp hn
      obtain ⟨hs, hkey⟩ := List.mem_filter.mp hs
      obtain ⟨q, hq, hq', hle⟩ := hcovers s hs
      have hsame : q.key = r.key := hq'.trans (of_decide_eq_true hkey)
      rwa [List.inj_on_of_nodup_map (isDiscovery_found docs terms).nodup hq h hsame] at hle
  rw [bestRelevance, hbest]
  rfl

theorem relevance_of_mem_keySections {r : Ranked} (h : r ∈ keySections docs) :
    r.relevance = keyRelevance := by
  obtain ⟨name, -, hname⟩ := List.mem_filterMap.mp h
  obtain ⟨document, -, hdocument⟩ := Option.bind_eq_some_iff.mp hname
  obtain ⟨part, -, hpart⟩ := Option.bind_eq_some_iff.mp hdocument
  obtain rfl := Option.some.inj hpart
  rfl

theorem mem_foldl_addKey {more rs : List Ranked} {r : Ranked} (h : r ∈ more.foldl addKey rs) :
    r ∈ rs ∨ (r ∈ more ∧ r.key ∉ rs.map Ranked.key) := by
  induction more generalizing rs with
  | nil => exact .inl h
  | cons q more ih =>
    have hsubset : rs.map Ranked.key ⊆ (addKey rs q).map Ranked.key := by
      rw [keys_addKey, addName]
      split
      · exact List.Subset.refl _
      · exact List.subset_append_left _ _
    rcases ih h with hr | ⟨hr, hnew⟩
    · unfold addKey at hr
      split at hr
      · exact .inl hr
      · next hnew =>
        rcases List.mem_append.mp hr with hr | hr
        · exact .inl hr
        · obtain rfl := List.mem_singleton.mp hr
          exact .inr ⟨List.mem_cons_self, by simpa using hnew⟩
    · exact .inr ⟨List.mem_cons_of_mem q hr, fun hmem => hnew (hsubset hmem)⟩

/-- Every candidate has the best relevance of its name. -/
theorem relevance_of_mem_candidates {r : Ranked} (h : r ∈ candidates docs terms) :
    r.relevance = bestRelevance docs terms r.key := by
  rcases mem_foldl_addKey h with hfound | ⟨hkey, hnew⟩
  · exact relevance_of_mem_found hfound
  · have hnone : (retrieved docs terms).filter (fun s => s.key = r.key) = [] := by
      refine List.filter_eq_nil_iff.mpr fun s hs hsame => hnew ?_
      rw [(isDiscovery_found docs terms).mem, ← of_decide_eq_true hsame]
      exact List.mem_map_of_mem hs
    rw [relevance_of_mem_keySections hkey, bestRelevance, hnone]
    rfl

end Candidates

/-! ## The context -/

/-- The sections that a context holds of its candidates: each name once; the more relevant first,
and the first discovered of equal relevance; as many as there are names and room for; each with the
best relevance of its name; and none left out that is more relevant than one of them. -/
structure IsSelection (docs : List Document) (terms : List Text) (relevant : List Relevant) :
    Prop where
  distinct : (relevant.map Relevant.key).Nodup
  ordered : relevant.Pairwise fun a b => b.relevance < a.relevance ∨
    (b.relevance = a.relevance ∧
      (discovered docs terms).idxOf a.key < (discovered docs terms).idxOf b.key)
  length : relevant.length = min maxSections (discovered docs terms).toFinset.card
  relevance : ∀ a ∈ relevant,
    a.key ∈ discovered docs terms ∧ a.relevance = bestRelevance docs terms a.key
  best : ∀ name ∈ discovered docs terms, name ∉ relevant.map Relevant.key →
    ∀ a ∈ relevant, bestRelevance docs terms name ≤ a.relevance

theorem length_candidates (docs : List Document) (terms : List Text) :
    (candidates docs terms).length = (discovered docs terms).toFinset.card := by
  have hnames := isDiscovery_candidates docs terms
  have hsame : (discovered docs terms).toFinset =
      ((candidates docs terms).map Ranked.key).toFinset := by
    ext name
    rw [List.mem_toFinset, List.mem_toFinset, hnames.mem]
  rw [hsame, List.toFinset_card_of_nodup hnames.nodup, List.length_map]

/-- The first of the sorted candidates are a selection. -/
theorem isSelection_take_sort (docs : List Document) (terms : List Text) :
    IsSelection docs terms
      (((Ranked.sort (candidates docs terms)).take maxSections).map Ranked.toRelevant) := by
  have hnames := isDiscovery_candidates docs terms
  have hkeys : ∀ rs : List Ranked,
      (rs.map Ranked.toRelevant).map Relevant.key = rs.map Ranked.key := fun rs => by
    rw [List.map_map]
    rfl
  have hmem : ∀ {r : Ranked}, r ∈ Ranked.sort (candidates docs terms) →
      r.key ∈ discovered docs terms ∧ r.relevance = bestRelevance docs terms r.key := by
    intro r hr
    have hr := Ranked.mem_sort.mp hr
    exact ⟨(hnames.mem _).mp (List.mem_map_of_mem hr), relevance_of_mem_candidates hr⟩
  have hsorted := Ranked.pairwise_sort (List.pairwise_map.mp hnames.order)
  constructor
  case distinct =>
    rw [hkeys]
    have hnodup := ((Ranked.sort_perm (candidates docs terms)).map Ranked.key).nodup_iff.mpr
      hnames.nodup
    exact hnodup.sublist ((List.take_sublist _ _).map _)
  case ordered => exact List.pairwise_map.mpr (hsorted.sublist (List.take_sublist _ _))
  case length =>
    rw [List.length_map, List.length_take, Ranked.length_sort, length_candidates]
  case relevance =>
    intro a ha
    obtain ⟨r, hr, rfl⟩ := List.mem_map.mp ha
    exact hmem (List.mem_of_mem_take hr)
  case best =>
    intro name hname hleft a ha
    rw [hkeys] at hleft
    obtain ⟨r, hr, rfl⟩ := List.mem_map.mp ha
    obtain ⟨q, hq, rfl⟩ := List.mem_map.mp ((hnames.mem name).mpr hname)
    have hq := Ranked.mem_sort.mpr hq
    rw [← List.take_append_drop maxSections (Ranked.sort (candidates docs terms))] at hq hsorted
    rcases List.mem_append.mp hq with hfirst | hlast
    · exact absurd (List.mem_map_of_mem hfirst) hleft
    · rw [← (hmem (List.mem_of_mem_drop hlast)).2]
      rcases (List.pairwise_append.mp hsorted).2.2 r hr q hlast with hlt | ⟨heq, -⟩
      · exact Nat.le_of_lt hlt
      · exact Nat.le_of_eq heq

/-- There are no candidates without documents. -/
theorem candidates_nil (terms : List Text) : candidates [] terms = [] := by
  have hsearch : ∀ term, search [] term perKeyword = [] := fun term => by
    have hsorted : search [] term perKeyword = (Ranked.sort []).take 3 := rfl
    rw [hsorted, Ranked.sort_nil, List.take_nil]
  have hfound : terms.flatMap (fun term => search [] term perKeyword) = [] :=
    List.flatMap_eq_nil_iff.mpr fun term _ => hsearch term
  rw [candidates, found, hfound]
  rfl

theorem relevant_build (docs : List Document) (title : Option Text) (files : List ChangedFile)
    (diff : Option Text) :
    (Context.build docs title files diff).relevant =
      ((Ranked.sort (candidates docs (keywords title files diff))).take maxSections).map
        Ranked.toRelevant := by
  unfold Context.build
  split
  · next hempty =>
    obtain rfl := List.isEmpty_iff.mp hempty
    rw [candidates_nil, Ranked.sort_nil]
    rfl
  · rfl

/-- A context holds a selection of the candidates for its keywords; the first sections of a keyword
are those that fewer than three hits precede. -/
theorem relevant_is_selection (docs : List Document) (title : Option Text)
    (files : List ChangedFile) (diff : Option Text) :
    IsSelection docs (keywords title files diff) (Context.build docs title files diff).relevant ∧
      ∀ term r, r ∈ search docs term perKeyword ↔ IsAmongFirst 3 docs term r := by
  rw [relevant_build]
  exact ⟨isSelection_take_sort docs _, fun term r => mem_search_iff 3⟩

end ChangeReview.Docs

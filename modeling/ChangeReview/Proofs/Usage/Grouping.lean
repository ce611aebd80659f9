import ChangeReview.Proofs.Faults
import ChangeReview.Proofs.Order.FirstSeen
import ChangeReview.Usage.Stats
import Mathlib.Algebra.BigOperators.Group.List.Basic
import Mathlib.Tactic.Abel

/-!
# Records in groups

Records are taken one by one into the group of their name, which is made when its first record
comes. So the groups stand in the order in which their names came first, each has taken exactly its
own records in their order, and what every record adds to adds up over the groups.
-/
namespace ChangeReview.Usage

section Grouping

variable {S : Type} (step : S → Record → Except Fault S) (start : S)

/-- The groups with one more record in the group of the given name. -/
def takeInto (name : Text) (r : Record) : List (Text × S) → Except Fault (List (Text × S))
  | [] => (step start r).map fun s => [(name, s)]
  | (n, s) :: rest =>
    if n = name then (step s r).map fun s => (n, s) :: rest
    else (takeInto name r rest).map fun rest => (n, s) :: rest

/-- The records by the name that `key` gives them. -/
def groupBy (key : Record → Text) (records : List Record) : Except Fault (List (Text × S)) :=
  records.foldlM (fun gs r => takeInto step start (key r) r gs) []

/-- The groups are those of the records by their names: in the order in which the names came first,
each what its own records come to in their order. -/
structure IsPartition (key : Record → Text) (records : List Record) (gs : List (Text × S)) :
    Prop where
  names : gs.map Prod.fst = (records.map key).eraseDups
  distinct : (gs.map Prod.fst).Nodup
  own : ∀ g ∈ gs, (records.filter fun r => key r = g.1).foldlM step start = .ok g.2

/-! ## One more record -/

/-- What one more record does to groups: the group of its name goes on with it, or starts. -/
inductive Taken (name : Text) (r : Record) : List (Text × S) → List (Text × S) → Prop where
  | again (front back : List (Text × S)) {s s' : S} : name ∉ front.map Prod.fst →
      step s r = .ok s' → Taken name r (front ++ (name, s) :: back) (front ++ (name, s') :: back)
  | first {gs : List (Text × S)} {s : S} : name ∉ gs.map Prod.fst → step start r = .ok s →
      Taken name r gs (gs ++ [(name, s)])

variable {step start} {key : Record → Text} {name : Text} {r : Record} {records : List Record}
  {gs gs' : List (Text × S)}

theorem taken_of_takeInto (h : takeInto step start name r gs = .ok gs') :
    Taken step start name r gs gs' := by
  induction gs generalizing gs' with
  | nil =>
    obtain ⟨s, hs, rfl⟩ := exists_of_map_eq_ok h
    exact .first List.not_mem_nil hs
  | cons g rest ih =>
    obtain ⟨n, s⟩ := g
    rw [takeInto] at h
    split at h
    · next hname =>
      obtain ⟨s', hs, rfl⟩ := exists_of_map_eq_ok h
      subst hname
      exact .again [] rest List.not_mem_nil hs
    · next hname =>
      obtain ⟨rest', hrest, rfl⟩ := exists_of_map_eq_ok h
      have hcons : ∀ {gs : List (Text × S)}, name ∉ gs.map Prod.fst →
          name ∉ ((n, s) :: gs).map Prod.fst := by
        intro gs hgs hmem
        rcases List.mem_cons.mp hmem with heq | hmem
        · exact hname heq.symm
        · exact hgs hmem
      cases ih hrest with
      | again front back hfront hs => exact .again ((n, s) :: front) back (hcons hfront) hs
      | first hnew hs => exact .first (hcons hnew) hs

theorem filter_concat_of_ne {n : Text} (h : n ≠ key r) :
    (records ++ [r]).filter (fun r => key r = n) = records.filter fun r => key r = n := by
  rw [List.filter_append, List.filter_cons_of_neg (by simpa using h.symm), List.filter_nil,
    List.append_nil]

theorem filter_concat_self :
    (records ++ [r]).filter (fun q => key q = key r) =
      (records.filter fun q => key q = key r) ++ [r] := by
  rw [List.filter_append, List.filter_cons_of_pos (by simp), List.filter_nil]

theorem IsPartition.mem_names (h : IsPartition step start key records gs) :
    name ∈ gs.map Prod.fst ↔ name ∈ records.map key := by
  rw [h.names, List.mem_eraseDups]

/-- One more record of a name that came before. -/
theorem IsPartition.again {front back : List (Text × S)} {s s' : S}
    (h : IsPartition step start key records (front ++ (key r, s) :: back))
    (hfront : key r ∉ front.map Prod.fst) (hs : step s r = .ok s') :
    IsPartition step start key (records ++ [r]) (front ++ (key r, s') :: back) := by
  have hnames := h.names
  have hdistinct := h.distinct
  have hcame : key r ∈ records.map key := by
    rw [← h.mem_names, List.map_append]
    exact List.mem_append_right _ List.mem_cons_self
  rw [List.map_append, List.map_cons] at hnames hdistinct
  have hback : key r ∉ back.map Prod.fst :=
    (List.nodup_cons.mp (List.nodup_append.mp hdistinct).2.1).1
  have hother : ∀ g, g ∈ front ∨ g ∈ back → g.1 ≠ key r := by
    rintro g (hg | hg) heq
    · exact hfront (heq ▸ List.mem_map_of_mem hg)
    · exact hback (heq ▸ List.mem_map_of_mem hg)
  refine ⟨?_, ?_, fun g hg => ?_⟩
  · rw [List.map_append, List.map_cons, hnames, List.map_append, List.map_singleton,
      Order.eraseDups_concat, if_pos hcame]
  · rw [List.map_append, List.map_cons]
    exact hdistinct
  · rcases List.mem_append.mp hg with hg | hg
    · rw [filter_concat_of_ne (hother g (.inl hg))]
      exact h.own g (List.mem_append_left _ hg)
    · rcases List.mem_cons.mp hg with rfl | hg
      · have hown := h.own (key r, s) (List.mem_append_right _ List.mem_cons_self)
        rw [filter_concat_self, List.foldlM_append, hown, ok_bind, List.foldlM_cons, hs, ok_bind]
        rfl
      · rw [filter_concat_of_ne (hother g (.inr hg))]
        exact h.own g (List.mem_append_right _ (List.mem_cons_of_mem _ hg))

/-- The first record of its name. -/
theorem IsPartition.first {s : S} (h : IsPartition step start key records gs)
    (hnew : key r ∉ gs.map Prod.fst) (hs : step start r = .ok s) :
    IsPartition step start key (records ++ [r]) (gs ++ [(key r, s)]) := by
  have hnever : key r ∉ records.map key := mt h.mem_names.mpr hnew
  refine ⟨?_, ?_, fun g hg => ?_⟩
  · rw [List.map_append, h.names, List.map_append, List.map_singleton, List.map_singleton,
      Order.eraseDups_concat, if_neg hnever]
  · rw [List.map_append, List.map_singleton]
    refine List.nodup_append.mpr ⟨h.distinct, by simp, fun n hn m hm heq => hnew ?_⟩
    obtain rfl : m = key r := List.mem_singleton.mp hm
    exact heq ▸ hn
  · rcases List.mem_append.mp hg with hg | hg
    · have hne : g.1 ≠ key r := fun heq => hnew (heq ▸ List.mem_map_of_mem hg)
      rw [filter_concat_of_ne hne]
      exact h.own g hg
    · obtain rfl := List.mem_singleton.mp hg
      have hnone : (records.filter fun q => key q = key r) = [] := by
        refine List.filter_eq_nil_iff.mpr fun q hq heq => hnever ?_
        rw [← of_decide_eq_true heq]
        exact List.mem_map_of_mem hq
      rw [filter_concat_self, hnone, List.nil_append, List.foldlM_cons, hs, ok_bind]
      rfl

/-- One more record leaves groups that are those of the records with it. -/
theorem IsPartition.take (h : IsPartition step start key records gs)
    (htaken : Taken step start (key r) r gs gs') :
    IsPartition step start key (records ++ [r]) gs' := by
  cases htaken with
  | again front back hfront hs => exact h.again hfront hs
  | first hnew hs => exact h.first hnew hs

/-! ## All records -/

/-- Records that are grouped come into their groups. -/
theorem isPartition_groupBy (h : groupBy step start key records = .ok gs) :
    IsPartition step start key records gs := by
  refine foldlM_induction ?_ (fun seen gs r gs' hseen htake => ?_) h
  · exact ⟨rfl, List.nodup_nil, fun _ hg => absurd hg List.not_mem_nil⟩
  · exact hseen.take (taken_of_takeInto htake)

/-! ## What adds up -/

section Measure

variable {M : Type} [AddCommMonoid M] {f : S → M} {amount : Record → M}

/-- A step adds to a quantity what its record amounts to. -/
structure Measures (step : S → Record → Except Fault S) (start : S) (f : S → M)
    (amount : Record → M) : Prop where
  start : f start = 0
  step : ∀ {s s' : S} {r : Record}, step s r = .ok s' → f s' = f s + amount r

/-- A run of steps adds what its records amount to. -/
theorem Measures.eq_sum (h : Measures step start f amount) {s : S}
    (hrun : records.foldlM step start = .ok s) : f s = (records.map amount).sum := by
  refine foldlM_induction (P := fun seen s => f s = (seen.map amount).sum) h.start
    (fun seen s r s' hseen hstep => ?_) hrun
  rw [h.step hstep, hseen, List.map_append, List.sum_append, List.map_singleton,
    List.sum_singleton]

theorem Measures.taken (h : Measures step start f amount)
    (htaken : Taken step start name r gs gs') :
    (gs'.map fun g => f g.2).sum = (gs.map fun g => f g.2).sum + amount r := by
  cases htaken with
  | again front back _ hs =>
    simp only [List.map_append, List.map_cons, List.sum_append, List.sum_cons, h.step hs]
    abel
  | first _ hs => simp [h.step hs, h.start]

/-- Over the groups, what the records amount to adds up. -/
theorem Measures.sum_groups (h : Measures step start f amount)
    (hgroups : groupBy step start key records = .ok gs) :
    (gs.map fun g => f g.2).sum = (records.map amount).sum := by
  unfold groupBy at hgroups
  refine foldlM_induction
    (P := fun seen gs => (gs.map fun g => f g.2).sum = (seen.map amount).sum) rfl
    (fun seen gs r gs' hseen htake => ?_) hgroups
  rw [h.taken (taken_of_takeInto htake), hseen, List.map_append, List.sum_append,
    List.map_singleton, List.sum_singleton]

end Measure

/-! ## Where there is a result -/

/-- Records are grouped where each of them can be taken. -/
theorem groupBy_ok_iff {P : Record → Prop} (h : ∀ s r, (∃ s', step s r = .ok s') ↔ P r)
    (key : Record → Text) (records : List Record) :
    (∃ gs, groupBy step start key records = .ok gs) ↔ ∀ r ∈ records, P r := by
  refine foldlM_ok_iff (fun gs r => ?_) records []
  induction gs with
  | nil => rw [takeInto, map_ok_iff, h]
  | cons g rest ih =>
    obtain ⟨n, s⟩ := g
    rw [takeInto]
    split
    · rw [map_ok_iff, h]
    · rw [map_ok_iff, ih]

end Grouping

end ChangeReview.Usage

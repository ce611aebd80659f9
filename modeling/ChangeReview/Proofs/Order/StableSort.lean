import Mathlib.Data.List.Basic

/-!
# Stable sorting

A stable sort keeps the order of things that it cannot tell apart: each has in front of it what is
smaller, and what is equal and stood in front of it before. So the first things of the sorted list
are those that few things precede.
-/
namespace ChangeReview.Order

section StableSort

variable {α : Type} {le : α → α → Bool} {l : List α}

/-- Of two numbered things, the first one comes first in a stable sort. -/
def precedes (le : α → α → Bool) (a b : α × Nat) : Bool :=
  le a.1 b.1 && (!le b.1 a.1 || decide (a.2 < b.2))

theorem not_precedes_self (a : α × Nat) : precedes le a a = false := by
  cases h : le a.1 a.1 <;> simp [precedes, h]

theorem not_precedes_of_precedes {a b : α × Nat} (h : precedes le a b = true) :
    precedes le b a = false := by
  simp only [precedes, Bool.and_eq_true, Bool.or_eq_true, Bool.not_eq_true',
    decide_eq_true_eq] at h
  obtain ⟨hab, hba | hlt⟩ := h
  · simp [precedes, hba]
  · simp [precedes, hab, Nat.le_of_lt hlt]

/-- The sorted list of the numbered things. -/
def sortedNumbered (le : α → α → Bool) (l : List α) : List (α × Nat) :=
  l.zipIdx.mergeSort (List.zipIdxLE le)

theorem map_fst_sortedNumbered : (sortedNumbered le l).map Prod.fst = l.mergeSort le :=
  List.mergeSort_zipIdx

theorem sortedNumbered_perm : (sortedNumbered le l).Perm l.zipIdx := List.mergeSort_perm _ _

theorem mem_sortedNumbered {a : α × Nat} : a ∈ sortedNumbered le l ↔ l[a.2]? = some a.1 := by
  rw [sortedNumbered_perm.mem_iff, List.mem_zipIdx_iff_getElem?]

variable (trans : ∀ a b c, le a b = true → le b c = true → le a c = true)
  (total : ∀ a b, (le a b || le b a) = true)

include trans total

theorem pairwise_sortedNumbered :
    (sortedNumbered le l).Pairwise fun a b => precedes le a b = true := by
  have hsorted : (sortedNumbered le l).Pairwise fun a b => List.zipIdxLE le a b = true :=
    List.pairwise_mergeSort (List.zipIdxLE_trans trans) (List.zipIdxLE_total total) l.zipIdx
  have hnumbers : ((sortedNumbered le l).map Prod.snd).Nodup := by
    rw [(sortedNumbered_perm.map Prod.snd).nodup_iff, List.zipIdx_map_snd]
    exact List.nodup_range'
  refine hsorted.imp₂ (fun a b hle hne => ?_) (List.pairwise_map.mp hnumbers)
  simp only [List.zipIdxLE] at hle
  split at hle
  · next hab =>
    split at hle
    · have hlt : a.2 < b.2 := Nat.lt_of_le_of_ne (of_decide_eq_true hle) hne
      simp [precedes, hab, hlt]
    · next hba => simp [precedes, hab, hba]
  · exact absurd hle Bool.false_ne_true

/-- What holds of things in their order holds still of those that the sort cannot tell apart. -/
theorem pairwise_mergeSort_stable {R : α → α → Prop} (h : l.Pairwise R) :
    (l.mergeSort le).Pairwise fun a b => le a b = true ∧ (le b a = true → R a b) := by
  rw [← map_fst_sortedNumbered, List.pairwise_map]
  refine (pairwise_sortedNumbered trans total).imp_of_mem fun {a b} ha hb hab => ?_
  rw [mem_sortedNumbered, List.getElem?_eq_some_iff] at ha hb
  obtain ⟨hi, ha⟩ := ha
  obtain ⟨hj, hb⟩ := hb
  simp only [precedes, Bool.and_eq_true, Bool.or_eq_true, Bool.not_eq_true',
    decide_eq_true_eq] at hab
  refine ⟨hab.1, fun hba => ?_⟩
  rcases hab.2 with hnot | hlt
  · exact absurd hba (by simp [hnot])
  · rw [← ha, ← hb]
    exact List.pairwise_iff_getElem.mp h _ _ hi hj hlt

end StableSort

/-- In a list in strict order, the first things are those that few others precede. -/
theorem mem_take_iff_countP {β : Type} {before : β → β → Bool} {s : List β}
    (hself : ∀ a, before a a = false)
    (h : s.Pairwise fun a b => before a b = true ∧ before b a = false) {x : β} (n : Nat) :
    x ∈ s.take n ↔ x ∈ s ∧ s.countP (before · x) < n := by
  induction s generalizing n with
  | nil => simp
  | cons a s ih =>
    obtain ⟨hfirst, hrest⟩ := List.pairwise_cons.mp h
    cases n with
    | zero => simp
    | succ n =>
      rw [List.take_succ_cons, List.mem_cons, List.mem_cons, List.countP_cons, ih hrest]
      constructor
      · rintro (rfl | ⟨hx, hcount⟩)
        · have hnone : s.countP (before · x) = 0 :=
            List.countP_eq_zero.mpr fun b hb => by simp [(hfirst b hb).2]
          exact ⟨.inl rfl, by simp [hnone, hself]⟩
        · refine ⟨.inr hx, ?_⟩
          split <;> omega
      · rintro ⟨rfl | hx, hcount⟩
        · exact .inl rfl
        · rw [(hfirst x hx).1, if_pos rfl] at hcount
          exact .inr ⟨hx, by omega⟩

/-- The first things of a sorted list are those that few things precede. -/
theorem mem_take_mergeSort {α : Type} {le : α → α → Bool} {l : List α}
    (trans : ∀ a b c, le a b = true → le b c = true → le a c = true)
    (total : ∀ a b, (le a b || le b a) = true) {x : α} (n : Nat) :
    x ∈ (l.mergeSort le).take n ↔
      ∃ i, l[i]? = some x ∧ l.zipIdx.countP (fun q => precedes le q (x, i)) < n := by
  have hstrict := (pairwise_sortedNumbered (l := l) trans total).imp fun h =>
    And.intro h (not_precedes_of_precedes h)
  rw [← map_fst_sortedNumbered, ← List.map_take, List.mem_map]
  constructor
  · rintro ⟨⟨a, i⟩, ha, rfl⟩
    obtain ⟨hmem, hcount⟩ := (mem_take_iff_countP not_precedes_self hstrict n).mp ha
    rw [sortedNumbered_perm.countP_eq] at hcount
    exact ⟨i, mem_sortedNumbered.mp hmem, hcount⟩
  · rintro ⟨i, hi, hcount⟩
    have hperm : (sortedNumbered le l).Perm l.zipIdx := sortedNumbered_perm
    rw [← hperm.countP_eq] at hcount
    have hmem : (x, i) ∈ sortedNumbered le l := mem_sortedNumbered.mpr hi
    exact ⟨(x, i), (mem_take_iff_countP not_precedes_self hstrict n).mpr ⟨hmem, hcount⟩, rfl⟩

end ChangeReview.Order

import ChangeReview.Text.Basic
import Mathlib.Data.List.Sort

/-!
# The order of texts

Texts are ordered by the code points of their characters. The order is linear, so sorting by it has
one result for all lists of the same texts, and one for all lists of the same named things when no
name comes twice.
-/
namespace ChangeReview.Text

theorem le_total (s t : Text) : (le s t || le t s) = true := by
  induction s generalizing t with
  | nil => rfl
  | cons a s ih =>
    cases t with
    | nil => rfl
    | cons b t =>
      simp only [le, Bool.or_eq_true, Bool.and_eq_true, decide_eq_true_eq, beq_iff_eq]
      have hrest := ih t
      rw [Bool.or_eq_true] at hrest
      by_cases heq : a = b
      · subst heq
        rcases hrest with h | h
        · exact .inl (.inr ⟨rfl, h⟩)
        · exact .inr (.inr ⟨rfl, h⟩)
      · have hne : a.toNat ≠ b.toNat := fun h => heq (Char.toNat_inj.mp h)
        rcases Nat.lt_or_gt_of_ne hne with h | h
        · exact .inl (.inl h)
        · exact .inr (.inl h)

theorem le_antisymm {s t : Text} (h : le s t = true) (h' : le t s = true) : s = t := by
  induction s generalizing t with
  | nil =>
    cases t with
    | nil => rfl
    | cons b t => exact absurd h' Bool.false_ne_true
  | cons a s ih =>
    cases t with
    | nil => exact absurd h Bool.false_ne_true
    | cons b t =>
      simp only [le, Bool.or_eq_true, Bool.and_eq_true, decide_eq_true_eq, beq_iff_eq] at h h'
      rcases h with h | ⟨rfl, h⟩
      · rcases h' with h' | ⟨rfl, h'⟩
        · exact absurd h' (Nat.lt_asymm h)
        · exact absurd h (Nat.lt_irrefl _)
      · rcases h' with h' | ⟨-, h'⟩
        · exact absurd h' (Nat.lt_irrefl _)
        · rw [ih h h']

theorem le_trans {s t u : Text} (h : le s t = true) (h' : le t u = true) : le s u = true := by
  induction s generalizing t u with
  | nil => rfl
  | cons a s ih =>
    cases t with
    | nil => exact absurd h Bool.false_ne_true
    | cons b t =>
      cases u with
      | nil => exact absurd h' Bool.false_ne_true
      | cons c u =>
        simp only [le, Bool.or_eq_true, Bool.and_eq_true, decide_eq_true_eq, beq_iff_eq] at h h' ⊢
        rcases h with h | ⟨rfl, h⟩
        · rcases h' with h' | ⟨rfl, h'⟩
          · exact .inl (Nat.lt_trans h h')
          · exact .inl h
        · rcases h' with h' | ⟨rfl, h'⟩
          · exact .inl h'
          · exact .inr ⟨rfl, ih h h'⟩

theorem pairwise_mergeSort (names : List Text) :
    (names.mergeSort le).Pairwise fun a b => le a b = true :=
  List.pairwise_mergeSort
    (fun a b c (h : le a b = true) (h' : le b c = true) => le_trans h h') le_total names

/-- What yields nothing does not matter for what a sorted list yields. -/
theorem filterMap_mergeSort_append {β : Type} {f : Text → Option β} {names more : List Text}
    (h : ∀ name ∈ more, f name = none) :
    ((names ++ more).mergeSort le).filterMap f = (names.mergeSort le).filterMap f := by
  have hfilter : ∀ l : List Text, l.filterMap f = (l.filter fun n => (f n).isSome).filterMap f := by
    intro l
    rw [List.filterMap_filter]
    congr 1
    funext n
    cases f n <;> rfl
  have hmore : more.filter (fun n => (f n).isSome) = [] := by
    refine List.filter_eq_nil_iff.mpr fun n hn => ?_
    rw [h n hn]
    exact Bool.false_ne_true
  rw [hfilter, hfilter (names.mergeSort le)]
  congr 1
  refine List.Perm.eq_of_pairwise (fun a b _ _ => le_antisymm)
    ((pairwise_mergeSort _).filter _) ((pairwise_mergeSort _).filter _) ?_
  have hperm := (List.mergeSort_perm (names ++ more) le).filter fun n => (f n).isSome
  rw [List.filter_append, hmore, List.append_nil] at hperm
  exact hperm.trans ((List.mergeSort_perm names le).filter _).symm

/-- Things under different names have one order by their names. -/
theorem mergeSort_byName {α : Type} {things sorted : List (Text × α)} (hperm : things.Perm sorted)
    (hsorted : (sorted.map Prod.fst).Pairwise fun s t => le s t = true ∧ s ≠ t) :
    things.mergeSort (fun a b => le a.1 b.1) = sorted := by
  have hnames : (sorted.map Prod.fst).Nodup := hsorted.imp fun h => h.2
  refine List.Perm.eq_of_pairwise (fun a b ha hb h h' => ?_)
    (List.pairwise_mergeSort (fun a b c (h : le a.1 b.1 = true) (h' : le b.1 c.1 = true) =>
      le_trans h h') (fun a b => le_total a.1 b.1) things)
    ((List.pairwise_map.mp hsorted).imp fun h => h.1)
    ((List.mergeSort_perm things _).trans hperm)
  exact List.inj_on_of_nodup_map hnames (hperm.mem_iff.mp (List.mem_mergeSort.mp ha)) hb
    (le_antisymm h h')

end ChangeReview.Text

import Mathlib.Data.List.Induction
import Mathlib.Data.List.Nodup

/-!
# First occurrences

A list that is gathered item by item, each added only if it is new, holds every item once, in the
order in which they occur first. So what some items add to others is what they would give alone, less
what is there already.
-/
namespace ChangeReview.Order

section Gather

variable {α : Type} [BEq α] [LawfulBEq α]

/-- The items with `a` behind them unless it is one of them. -/
def addNew (seen : List α) (a : α) : List α := if seen.contains a then seen else seen ++ [a]

theorem addNew_of_mem {seen : List α} {a : α} (h : a ∈ seen) : addNew seen a = seen := by
  simp [addNew, h]

theorem addNew_of_not_mem {seen : List α} {a : α} (h : a ∉ seen) : addNew seen a = seen ++ [a] := by
  simp [addNew, h]

theorem mem_foldl_addNew {items seen : List α} {a : α} :
    a ∈ items.foldl addNew seen ↔ a ∈ seen ∨ a ∈ items := by
  induction items generalizing seen with
  | nil => simp
  | cons b items ih =>
    rw [List.foldl_cons, ih, List.mem_cons]
    by_cases hb : b ∈ seen
    · rw [addNew_of_mem hb]
      refine or_congr_right' fun ha => ?_
      simp [ne_of_mem_of_not_mem hb ha |>.symm]
    · rw [addNew_of_not_mem hb, List.mem_append, List.mem_singleton, or_assoc]

theorem nodup_foldl_addNew (items : List α) {seen : List α} (h : seen.Nodup) :
    (items.foldl addNew seen).Nodup := by
  induction items generalizing seen with
  | nil => exact h
  | cons a items ih =>
    apply ih
    by_cases ha : a ∈ seen
    · rwa [addNew_of_mem ha]
    · rw [addNew_of_not_mem ha]
      simpa using h.concat ha

/-- What is gathered behind some items is what would be gathered alone, less those items. -/
theorem foldl_addNew (items seen : List α) :
    items.foldl addNew seen = seen ++ (items.foldl addNew []).filter fun a => !seen.contains a := by
  induction items using List.reverseRecOn with
  | nil => simp
  | append_singleton items a ih =>
    simp only [List.foldl_append, List.foldl_cons, List.foldl_nil, ih]
    by_cases hfound : a ∈ items.foldl addNew []
    · rw [addNew_of_mem hfound, addNew_of_mem]
      by_cases hseen : a ∈ seen <;> simp [hfound, hseen]
    · rw [addNew_of_not_mem hfound, List.filter_append, ← List.append_assoc]
      by_cases hseen : a ∈ seen
      · rw [addNew_of_mem (List.mem_append_left _ hseen)]
        simp [hseen]
      · rw [addNew_of_not_mem (by simp [hseen, hfound])]
        simp [hseen]

/-- One more item comes behind the distinct ones of a list if it is new. -/
theorem eraseDups_concat (items : List α) (a : α) :
    (items ++ [a]).eraseDups = if a ∈ items then items.eraseDups else items.eraseDups ++ [a] := by
  rw [List.eraseDups_append]
  split
  · next ha => simp [List.removeAll, ha]
  · next ha => simp [List.removeAll, ha, List.eraseDups_cons]

end Gather

end ChangeReview.Order

import ChangeReview.Change.Diff

/-!
# Groups of lines

The lines of a diff fall into what stands in front of the first opening line, and a group for every
opening line. A group is closed by the next opening line and by nothing else.
-/
namespace ChangeReview.Diff

/-- An opening line heads its group, and the lines behind it up to the next one follow. -/
theorem groups_opening {l : Text} (hl : isOpening l = true) (more : List Text) :
    groups (l :: more) = ([], (l, (groups more).1) :: (groups more).2) := by
  rw [groups]
  simp only [hl, if_true]

theorem groups_line {l : Text} (hl : isOpening l = false) (more : List Text) :
    groups (l :: more) = (l :: (groups more).1, (groups more).2) := by
  rw [groups]
  simp only [hl, Bool.false_eq_true, if_false]

/-- Groups begin anew at every opening line. -/
theorem groups_append_opening {l : Text} (hl : isOpening l = true) (ls more : List Text) :
    groups (ls ++ l :: more) = ((groups ls).1, (groups ls).2 ++ (groups (l :: more)).2) := by
  induction ls with
  | nil => rw [List.nil_append, groups_opening hl]; rfl
  | cons k ls ih =>
    rw [List.cons_append]
    cases hk : isOpening k with
    | true => rw [groups_opening hk, groups_opening hk, ih, List.cons_append]
    | false => rw [groups_line hk, groups_line hk, ih]

/-- What the groups of some lines are made of: the opening lines, and behind each of them lines that
open nothing, in the order of the lines. -/
theorem groups_spec (ls : List Text) :
    (groups ls).1 ++ (groups ls).2.flatMap (fun g => g.1 :: g.2) = ls ∧
      (∀ l ∈ (groups ls).1, isOpening l = false) ∧
        ∀ g ∈ (groups ls).2, isOpening g.1 = true ∧ ∀ l ∈ g.2, isOpening l = false := by
  induction ls with
  | nil => simp [groups]
  | cons l ls ih =>
    obtain ⟨hlines, hfront, hgroups⟩ := ih
    cases hl : isOpening l with
    | true =>
      rw [groups_opening hl]
      refine ⟨?_, by simp, List.forall_mem_cons.mpr ⟨⟨hl, hfront⟩, hgroups⟩⟩
      rw [List.flatMap_cons, List.nil_append, List.cons_append, hlines]
    | false =>
      rw [groups_line hl]
      refine ⟨?_, List.forall_mem_cons.mpr ⟨hl, hfront⟩, hgroups⟩
      rw [List.cons_append, hlines]

theorem mem_of_mem_front {ls : List Text} {l : Text} (h : l ∈ (groups ls).1) : l ∈ ls := by
  rw [← (groups_spec ls).1]
  exact List.mem_append_left _ h

theorem mem_of_mem_group {ls : List Text} {g : Text × List Text} (hg : g ∈ (groups ls).2) {l : Text}
    (h : l ∈ g.1 :: g.2) : l ∈ ls := by
  rw [← (groups_spec ls).1]
  exact List.mem_append_right _ (List.mem_flatMap.mpr ⟨g, hg, h⟩)

/-- Lines that open nothing belong to what stands in front of them. -/
theorem groups_append {front : List Text} (h : ∀ l ∈ front, isOpening l = false)
    (rest : List Text) : groups (front ++ rest) = (front ++ (groups rest).1, (groups rest).2) := by
  induction front with
  | nil => rfl
  | cons l front ih =>
    rw [List.cons_append, groups_line (h l List.mem_cons_self),
      ih fun k hk => h k (List.mem_cons_of_mem l hk), List.cons_append]

theorem groups_of_not_opening {ls : List Text} (h : ∀ l ∈ ls, isOpening l = false) :
    groups ls = (ls, []) := by
  rw [← List.append_nil ls, groups_append h]
  rfl

/-- The opening lines head the groups. -/
theorem map_fst_groups (ls : List Text) : (groups ls).2.map Prod.fst = ls.filter isOpening := by
  induction ls with
  | nil => rfl
  | cons l ls ih =>
    cases hl : isOpening l with
    | true => rw [groups_opening hl, List.map_cons, ih, List.filter_cons_of_pos hl]
    | false => rw [groups_line hl, ih, List.filter_cons_of_neg (by simp [hl])]

end ChangeReview.Diff

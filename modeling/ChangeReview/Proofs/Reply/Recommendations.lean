import ChangeReview.Proofs.Reply.ListLines
import ChangeReview.Proofs.Reply.ReplyFaults

/-!
# Recommendations of a reply

The items of a list of values are neat. Where there are none, the list lines of the reply count, and
an item of these is neat unless its line is hollow.
-/
namespace ChangeReview.Reply

/-- The list lines of a text. -/
def listLines (t : Text) : List Text := (Text.lines t).filter fun line => (listItem? line).isSome

/-- The reply has no list of values that shows an item, so that its lines count. -/
def IsReadByLines (t : Text) : Prop := ∀ values, extractList t = .ok values → shownItems values = []

/-- The lines of a reply count, and a hollow one is among the given lines. -/
def HasHollow (t : Text) (lines : List Text) : Prop :=
  IsReadByLines t ∧ ∃ line ∈ lines, IsHollow line

theorem isNeat_shownItems {values : List Value} {item : Text} (h : item ∈ shownItems values) :
    item.IsNeat := by
  obtain ⟨hitem, hsome⟩ := List.mem_filter.mp h
  obtain ⟨v, -, rfl⟩ := List.mem_map.mp hitem
  exact ⟨by simpa using hsome, Text.trim_trim v.display⟩

/-- The recommendations are the items of the list lines, or those of a list of values. -/
theorem recommendations_cases {t : Text} {items : List Text} (h : recommendations t = .ok items) :
    (IsReadByLines t ∧ items = listItems t) ∨
      ¬ IsReadByLines t ∧ ∃ values, extractList t = .ok values ∧ items = shownItems values := by
  unfold recommendations at h
  cases hlist : extractList t with
  | error fault =>
    have hlines : IsReadByLines t := by
      intro values hvalues
      exact absurd (hlist.symm.trans hvalues) (by simp)
    rw [hlist] at h
    dsimp only at h
    split at h
    · exact .inl ⟨hlines, (Except.ok.inj h).symm⟩
    · exact absurd h (by simp)
  | ok values =>
    have hlines : IsReadByLines t ↔ shownItems values = [] := by simp [IsReadByLines, hlist]
    rw [hlist] at h
    have h := Except.ok.inj h
    split at h
    · next hnone => exact .inl ⟨hlines.mpr (by simpa using hnone), h.symm⟩
    · next hsome => exact .inr ⟨fun hby => hsome (by simp [hlines.mp hby]), values, rfl, h.symm⟩

/-- The items of the list lines are the recommendations unless the reply nests too deep, or has a
list of values that shows other ones. -/
theorem recommendations_eq_listItems_iff {t : Text} :
    recommendations t = .ok (listItems t) ↔
      (∀ part, extractList t ≠ .error (.tooDeep part)) ∧
        ∀ values, extractList t = .ok values → shownItems values ≠ [] →
          shownItems values = listItems t := by
  unfold recommendations
  cases hlist : extractList t with
  | error fault =>
    cases hbad : fault.isBadValue with
    | true => simp [hbad, Fault.ne_tooDeep hbad]
    | false =>
      obtain ⟨part, rfl⟩ := (extractList_fault hlist).tooDeep hbad
      simp [hbad]
  | ok values => by_cases hnone : shownItems values = [] <;> simp [hnone]

theorem neat_filterMap_iff (lines : List Text) :
    (∀ item ∈ lines.filterMap listItem?, item.IsNeat) ↔ ¬ ∃ line ∈ lines, IsHollow line := by
  simp only [List.mem_filterMap, isHollow_iff]
  constructor
  · rintro hneat ⟨line, hline, item, hitem, hblank⟩
    exact hblank (hneat item ⟨line, hline, hitem⟩)
  · rintro hnone item ⟨line, hline, hitem⟩
    by_contra hblank
    exact hnone ⟨line, hline, item, hitem, hblank⟩

theorem not_hasHollow {lines : List Text}
    (h : ∀ item ∈ lines.filterMap listItem?, item.IsNeat) (t : Text) : ¬ HasHollow t lines :=
  fun hhollow => (neat_filterMap_iff lines).mp h hhollow.2

/-- The first items of a text are those of its first list lines. -/
theorem take_listItems (t : Text) (n : Nat) :
    (listItems t).take n = ((listLines t).take n).filterMap listItem? := by
  unfold listItems listLines
  generalize Text.lines t = lines
  induction lines generalizing n with
  | nil => simp
  | cons line lines ih =>
    cases hitem : listItem? line with
    | none => simp [hitem, ih]
    | some item =>
      cases n with
      | zero => simp
      | succ n => simp [hitem, ih]

section Neat

variable {t : Text} {items : List Text} (h : recommendations t = .ok items)

include h

/-- All recommendations are neat unless the lines of the reply count and one of them is hollow. -/
theorem neat_recommendations_iff :
    (∀ item ∈ items, item.IsNeat) ↔ ¬ HasHollow t (Text.lines t) := by
  rcases recommendations_cases h with ⟨hlines, rfl⟩ | ⟨hvalues, values, -, rfl⟩
  · rw [listItems, neat_filterMap_iff, HasHollow, and_iff_right hlines]
  · exact iff_of_true (fun item hitem => isNeat_shownItems hitem) fun hhollow => hvalues hhollow.1

/-- The first recommendations are neat unless one of as many list lines is hollow. -/
theorem neat_take_iff (n : Nat) :
    (∀ item ∈ items.take n, item.IsNeat) ↔ ¬ HasHollow t ((listLines t).take n) := by
  rcases recommendations_cases h with ⟨hlines, rfl⟩ | ⟨hvalues, values, -, rfl⟩
  · rw [take_listItems, neat_filterMap_iff, HasHollow, and_iff_right hlines]
  · refine iff_of_true (fun item hitem => ?_) fun hhollow => hvalues hhollow.1
    exact isNeat_shownItems (List.mem_of_mem_take hitem)

end Neat

end ChangeReview.Reply

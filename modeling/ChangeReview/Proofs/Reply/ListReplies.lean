import ChangeReview.Proofs.Reply.Prose
import ChangeReview.Proofs.Reply.Recommendations
import ChangeReview.Proofs.Reply.ReplyFaults

/-!
# Replies with list lines

A reply of list lines is looked through for a list of values before its lines count. No such reply
is a list as a whole, since the first character of a line that is no blank opens none. What is left
is the first stretch from a bracket to the one that closes it, and that can only stand in an item.
-/
namespace ChangeReview.Reply

/-- A line that shows an item behind its marker and a blank. -/
def markedLine (row : Text × Text) : Text := row.1 ++ ' ' :: row.2

/-- The lines of a text are some that are no list lines and open no bracket, and behind them those
that show neat items behind markers. -/
structure IsListReply (t : Text) (rows : List (Text × Text)) : Prop where
  marked : ∀ row ∈ rows, IsMarker row.1 ∧ row.2.IsNeat
  lines : ∃ intro, Text.lines t = intro ++ rows.map markedLine ∧
    ∀ line ∈ intro, listItem? line = none ∧ '[' ∉ line

/-- A text holds something else than its lines: it nests too deep as a whole, or is no document and
its first stretch from a bracket to the closing one does, or that stretch is a list that shows other
items. -/
inductive IsDiverted (items : List Text) (u : Text) : Prop where
  | whole {part : Text} : Value.parse u = .error (.tooDeep part) → IsDiverted items u
  | deep {span part : Text} : Value.parse u = .error .notJson → firstSpan '[' ']' u = some span →
      Value.parse span = .error (.tooDeep part) → IsDiverted items u
  | list {span : Text} {values : List Value} : Value.parse u = .error .notJson →
      firstSpan '[' ']' u = some span → Value.parse span = .ok (.list values) →
      shownItems values ≠ [] → shownItems values ≠ items → IsDiverted items u

/-! ## Where a document starts -/

/-- The first character behind blanks is the first of its line, whatever the text or line before. -/
theorem exists_line_start {c : Char} (hc : Text.isLineBreak c = false) {front gap : Text}
    (hfront : Text.isBlankText front = true ∨ ∃ before, front = before ++ ['\n'])
    (hgap : Text.isBlankText gap = true) (rest : Text) :
    ∃ before after, before ++ c :: after ∈ Text.lines (front ++ (gap ++ c :: rest)) ∧
      Text.isBlankText before = true := by
  simp only [Text.isBlankText_iff] at hfront hgap ⊢
  rcases hfront with hfront | ⟨before, rfl⟩
  · obtain ⟨start, after, hmem, hsub⟩ := Text.exists_line_at hc (front ++ gap) rest
    rw [List.append_assoc] at hmem
    refine ⟨start, after, hmem, fun d hd => ?_⟩
    rcases List.mem_append.mp (hsub hd) with hd | hd
    · exact hfront d hd
    · exact hgap d hd
  · obtain ⟨start, after, hmem, hsub⟩ := Text.exists_line_at hc gap rest
    refine ⟨start, after, ?_, fun d hd => hgap d (hsub hd)⟩
    rw [List.append_assoc, List.singleton_append, Text.lines_append_break]
    exact List.mem_append_right _ hmem

/-- A document with brackets around it starts with the first of them. -/
theorem exists_opening {opening closing : Char} {v : Value} (hv : Brackets opening closing v)
    {u : Text} (h : Value.parse u = .ok v) :
    ∃ gap rest, u = gap ++ opening :: rest ∧ Text.isBlankText gap = true := by
  obtain ⟨rest, hread, -⟩ := Value.parse_eq_ok_iff.mp h
  obtain ⟨front, hsplit, hbalanced⟩ := (balanced_all hv.isPair _).1 hread
  obtain ⟨body, hbody, -⟩ := hbalanced.enclosed hv
  have hgap : u = u.takeWhile Value.isGap ++ Value.skipGap u :=
    List.takeWhile_append_dropWhile.symm
  refine ⟨u.takeWhile Value.isGap, body ++ [closing] ++ rest, ?_, ?_⟩
  · rw [hsplit, hbody] at hgap
    simpa using hgap
  · exact Text.isBlankText_iff.mpr fun c hc => isBlank_of_isGap (List.mem_takeWhile_imp hc)

/-- Without its fence a text stands in it at the start of a line, or behind blanks. -/
theorem exists_stripFence {t : Text} (h : stripFence t ≠ []) :
    ∃ front back, t = front ++ (stripFence t ++ back) ∧
      (Text.isBlankText front = true ∨ ∃ before, front = before ++ ['\n']) := by
  obtain ⟨lead, tail, ht, hlead, -⟩ := Text.exists_trim t
  unfold stripFence at h ⊢
  dsimp only at h ⊢
  split at h
  · next hfence =>
    rw [if_pos hfence]
    split at h
    · exact absurd rfl h
    · next body hcut =>
      obtain ⟨front, hfront⟩ := Text.exists_of_cut hcut
      have hsplit : t = lead ++ front ++ ['\n'] ++ (body ++ tail) := by
        conv => lhs; rw [ht, hfront]
        simp
      split
      · have hpart : Text.trimRight (body.take (body.length - fence.length)) <+: body :=
          (Text.trimRight_front _).trans (List.take_prefix _ _)
        obtain ⟨more, hmore⟩ := hpart
        refine ⟨_, more ++ tail, ?_, .inr ⟨lead ++ front, rfl⟩⟩
        rw [← List.append_assoc _ more, hmore, ← hsplit]
      · exact ⟨_, tail, hsplit, .inr ⟨lead ++ front, rfl⟩⟩
  · next hfence =>
    rw [if_neg hfence]
    exact ⟨lead, tail, ht, .inl hlead⟩

theorem IsMarker.not_mem_bracket {marker : Text} (h : IsMarker marker) : '[' ∉ marker := by
  intro hmem
  cases h with
  | bullet hc =>
    rw [← List.mem_singleton.mp hmem] at hc
    exact absurd hc (by decide)
  | number _ hdigits hend =>
    rcases List.mem_append.mp hmem with hmem | hmem
    · exact absurd (hdigits _ hmem) (by decide)
    · rw [← List.mem_singleton.mp hmem] at hend
      exact absurd hend (by decide)

namespace IsListReply

variable {t : Text} {rows : List (Text × Text)} (h : IsListReply t rows)

include h

theorem listItems_eq : listItems t = rows.map Prod.snd := by
  obtain ⟨intro, hlines, hintro⟩ := h.lines
  have hnone : intro.filterMap listItem? = [] :=
    List.filterMap_eq_nil_iff.mpr fun line hline => (hintro line hline).1
  have hrows : ∀ row ∈ rows, listItem? (markedLine row) = some row.2 := by
    intro row hrow
    obtain ⟨hmarker, hneat⟩ := h.marked row hrow
    have hline : IsListLine ([] ++ (row.1 ++ ([' '] ++ (row.2 ++ [])))) row.2 :=
      .neat rfl hmarker (by simp) (by decide) hneat rfl
    simpa [markedLine] using hline.listItem?
  rw [listItems, hlines, List.filterMap_append, hnone, List.nil_append, List.filterMap_map]
  have hall := List.filterMap_congr (f := listItem? ∘ markedLine) (g := fun row => some row.2) hrows
  rw [hall, List.filterMap_eq_map']

/-- No line starts with a bracket. -/
theorem not_bracket {gap rest : Text} (hgap : Text.isBlankText gap = true) :
    gap ++ '[' :: rest ∉ Text.lines t := by
  obtain ⟨intro, hlines, hintro⟩ := h.lines
  rw [hlines, List.mem_append, List.mem_map]
  rintro (hline | ⟨row, hrow, hline⟩)
  · exact (hintro _ hline).2 (by simp)
  · obtain ⟨c, marker, hmarker, hc, hkind⟩ := (h.marked row hrow).1.exists_cons
    have hstart : Text.trimLeft (markedLine row) = markedLine row := by
      rw [markedLine, hmarker, List.cons_append]
      exact List.dropWhile_cons_of_neg (by simp [hc])
    have hbracket : Text.trimLeft (gap ++ '[' :: rest) = '[' :: rest := by
      rw [Text.trimLeft_append_blank hgap]
      exact List.dropWhile_cons_of_neg (by decide)
    rw [← hline, hstart, markedLine, hmarker] at hbracket
    obtain rfl := (List.cons.inj hbracket).1
    exact absurd hkind (by decide)

/-- The reply is no list as a whole. -/
theorem parse_ne_list (values : List Value) : Value.parse (stripFence t) ≠ .ok (.list values) := by
  intro hparse
  obtain ⟨gap, rest, hopens, hgap⟩ := exists_opening (.list values) hparse
  obtain ⟨front, back, ht, hfront⟩ := exists_stripFence (t := t) (by rw [hopens]; simp)
  rw [hopens, List.append_assoc, List.cons_append] at ht
  obtain ⟨before, after, hmem, hblank⟩ :=
    exists_line_start (c := '[') (by decide) hfront hgap (rest ++ back)
  rw [← ht] at hmem
  exact h.not_bracket hblank hmem

/-- The items are the recommendations unless the reply is diverted. -/
theorem recommendations_eq_iff :
    recommendations t = .ok (rows.map Prod.snd) ↔
      ¬ IsDiverted (rows.map Prod.snd) (stripFence t) := by
  rw [← h.listItems_eq, recommendations_eq_listItems_iff]
  simp only [ne_eq, extractList_eq_tooDeep_iff, extractList_eq_ok_iff, h.parse_ne_list, false_or]
  constructor
  · rintro ⟨hshallow, hvalues⟩ hdiverted
    rcases hdiverted with hwhole | ⟨hform, hspan, hpart⟩ | ⟨hform, hspan, hread, hsome, hother⟩
    · exact hshallow _ (.inl hwhole)
    · exact hshallow _ (.inr ⟨hform, _, hspan, hpart⟩)
    · exact hother (hvalues _ ⟨hform, _, hspan, hread⟩ hsome)
  · intro hkept
    constructor
    · rintro part (hwhole | ⟨hform, span, hspan, hpart⟩)
      · exact hkept (.whole hwhole)
      · exact hkept (.deep hform hspan hpart)
    · rintro values ⟨hform, span, hspan, hread⟩ hsome
      by_contra hother
      exact hkept (.list hform hspan hread hsome hother)

/-- Where no item opens a bracket the reply does not. -/
theorem not_mem_bracket (hitems : ∀ row ∈ rows, '[' ∉ row.2) : '[' ∉ t := by
  intro hmem
  obtain ⟨front, rest, ht⟩ := List.append_of_mem hmem
  obtain ⟨before, after, hline, -⟩ := Text.exists_line_at (c := '[') (by decide) front rest
  obtain ⟨intro, hlines, hintro⟩ := h.lines
  rw [← ht, hlines, List.mem_append, List.mem_map] at hline
  rcases hline with hline | ⟨row, hrow, hline⟩
  · exact (hintro _ hline).2 (by simp)
  · have hbracket : '[' ∈ markedLine row := by
      rw [hline]
      simp
    simp only [markedLine, List.mem_append, List.mem_cons] at hbracket
    rcases hbracket with hmarker | hblank | hitem
    · exact (h.marked row hrow).1.not_mem_bracket hmarker
    · exact absurd hblank (by decide)
    · exact hitems row hrow hitem

/-- Where no item opens a bracket, and not too many braces may nest, nothing diverts the reply. -/
theorem not_isDiverted (hitems : ∀ row ∈ rows, '[' ∉ row.2)
    (hbraces : t.countP Value.isOpening ≤ Value.maxDepth) (items : List Text) :
    ¬ IsDiverted items (stripFence t) := by
  have hpart : stripFence t <:+: t := by
    by_cases hnone : stripFence t = []
    · rw [hnone]
      exact List.nil_infix
    · obtain ⟨front, back, ht, -⟩ := exists_stripFence hnone
      exact ⟨front, back, by rw [List.append_assoc, ← ht]⟩
  have hspan : ∀ span, firstSpan '[' ']' (stripFence t) ≠ some span := by
    intro span hspan
    obtain ⟨front, rest, hsplit, -⟩ := firstSpan_eq_some hspan
    exact h.not_mem_bracket hitems (hpart.subset (by simp [hsplit]))
  rintro (hwhole | ⟨-, hsome, -⟩ | ⟨-, hsome, -⟩)
  · cases Value.parse_refusal hwhole with
    | deep _ hdeep => exact absurd (hpart.sublist.countP_le.trans hbraces) (Nat.not_le_of_lt hdeep)
  · exact hspan _ hsome
  · exact hspan _ hsome

end IsListReply

/-- The items of list lines are the recommendations just unless the reply is diverted. It is not
where no item opens a bracket, as long as it has no more braces than may nest. -/
theorem list_items_survive {t : Text} {rows : List (Text × Text)} (h : IsListReply t rows) :
    (recommendations t = .ok (rows.map Prod.snd) ↔
      ¬ IsDiverted (rows.map Prod.snd) (stripFence t)) ∧
    ((∀ row ∈ rows, '[' ∉ row.2) → t.countP Value.isOpening ≤ Value.maxDepth →
      recommendations t = .ok (rows.map Prod.snd)) :=
  ⟨h.recommendations_eq_iff, fun hitems hbraces =>
    h.recommendations_eq_iff.mpr (h.not_isDiverted hitems hbraces _)⟩

/-- An item with an index of a name in it survives behind an introduction, and so does the next. -/
theorem list_items_survive_named :
    IsListReply "Ideas:\n- Use a[i]\n2) Test it" [("-", "Use a[i]"), ("2)", "Test it")] ∧
      recommendations "Ideas:\n- Use a[i]\n2) Test it" = .ok ["Use a[i]", "Test it"] := by
  have hreply : IsListReply "Ideas:\n- Use a[i]\n2) Test it"
      [("-", "Use a[i]"), ("2)", "Test it")] := by
    constructor
    · have hbullet : IsMarker "-" := .bullet (by decide)
      have hnumber : IsMarker "2)" :=
        @IsMarker.number "2" ')' (by decide) (List.all_eq_true.mp (by decide)) (.inr rfl)
      have hrow : Text.IsNeat "Use a[i]" ∧ Text.IsNeat "Test it" := by decide
      simpa using ⟨⟨hbullet, hrow.1⟩, ⟨hnumber, hrow.2⟩⟩
    · exact ⟨["Ideas:"], by decide, by decide⟩
  refine ⟨hreply, (list_items_survive hreply).1.mpr ?_⟩
  have hspan : firstSpan '[' ']' (stripFence "Ideas:\n- Use a[i]\n2) Test it") = some "[i]" := by
    decide
  have hwhole : Value.parse (stripFence "Ideas:\n- Use a[i]\n2) Test it") = .error .notJson := by
    decide +kernel
  have hform : Value.parse "[i]" = .error .notJson := by
    decide +kernel
  rintro (hdeep | ⟨-, hsome, hdeep⟩ | ⟨-, hsome, hlist, -⟩)
  · exact absurd (hwhole.symm.trans hdeep) (by simp)
  · obtain rfl := Option.some.inj (hspan.symm.trans hsome)
    exact absurd (hform.symm.trans hdeep) (by simp)
  · obtain rfl := Option.some.inj (hspan.symm.trans hsome)
    exact absurd (hform.symm.trans hlist) (by simp)

/-- A list line that shows a number in brackets is lost, and the number is recommended. -/
theorem list_item_diverted :
    IsListReply "- Check xs[0] before use" [("-", "Check xs[0] before use")] ∧
      recommendations "- Check xs[0] before use" = .ok ["0"] := by
  refine ⟨⟨?_, [], by decide, by simp⟩, ?_⟩
  · exact List.forall_mem_singleton.mpr ⟨.bullet (by decide), by decide⟩
  · exact eq_ok_of_toOption (by decide +kernel)

end ChangeReview.Reply

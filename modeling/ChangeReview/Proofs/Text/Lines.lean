import ChangeReview.Proofs.Text.Paths
import ChangeReview.Proofs.Text.Prefix
import ChangeReview.Text.Basic

/-!
# Lines of a text

A text without a line boundary is one line of any document it stands in: lines that are joined by
line feeds are read back as they were, provided the last one is not empty. Whatever boundaries a text
holds, behind a line feed its lines start anew, and no line holds a boundary.
-/
namespace ChangeReview.Text

/-- No character of the text is a line boundary. -/
def OneLine (t : Text) : Prop := ∀ c ∈ t, isLineBreak c = false

instance (t : Text) : Decidable t.OneLine := List.decidableBAll _ t

@[simp] theorem oneLine_nil : OneLine [] := by simp [OneLine]

@[simp] theorem oneLine_cons {c : Char} {t : Text} :
    OneLine (c :: t) ↔ isLineBreak c = false ∧ OneLine t := by simp [OneLine]

@[simp] theorem oneLine_append {s t : Text} : OneLine (s ++ t) ↔ OneLine s ∧ OneLine t := by
  simp only [OneLine, List.mem_append]
  constructor
  · intro h
    exact ⟨fun c hc => h c (.inl hc), fun c hc => h c (.inr hc)⟩
  · rintro ⟨hs, ht⟩ c (hc | hc)
    · exact hs c hc
    · exact ht c hc

/-! ## Lines of a text -/

/-- Every character but a carriage return is read on its own. -/
theorem lines_cons_ne {c : Char} (hr : c ≠ '\r') (t : Text) :
    lines (c :: t) = if isLineBreak c then [] :: lines t else consFirst c (lines t) := by
  conv => lhs; unfold lines
  split
  · next heq => exact absurd heq (by simp)
  · next heq => exact absurd (List.cons.inj heq).1 hr
  · next heq =>
    obtain ⟨rfl, rfl⟩ := List.cons.inj heq
    rfl

theorem lines_cons {c : Char} (hc : isLineBreak c = false) (t : Text) :
    lines (c :: t) = consFirst c (lines t) := by
  have hr : c ≠ '\r' := by rintro rfl; simp [isLineBreak] at hc
  rw [lines_cons_ne hr, if_neg (by simp [hc])]

theorem lines_newline (t : Text) : lines ('\n' :: t) = [] :: lines t := by
  rw [lines_cons_ne (by decide), if_pos (by decide)]

/-- A line with its line feed is the first line. -/
theorem lines_append_newline {l : Text} (hl : l.OneLine) (t : Text) :
    lines (l ++ '\n' :: t) = l :: lines t := by
  induction l with
  | nil => exact lines_newline t
  | cons c l ih =>
    obtain ⟨hc, hl⟩ := oneLine_cons.mp hl
    rw [List.cons_append, lines_cons hc, ih hl, consFirst]

theorem lines_of_oneLine {l : Text} (hl : l.OneLine) (hne : l ≠ []) : lines l = [l] := by
  induction l with
  | nil => exact absurd rfl hne
  | cons c l ih =>
    obtain ⟨hc, hl⟩ := oneLine_cons.mp hl
    rw [lines_cons hc]
    by_cases h : l = []
    · subst h; rfl
    · rw [ih hl h, consFirst]

@[simp] theorem join_singleton (sep a : Text) : join sep [a] = a := by
  simp [join, List.intercalate]

theorem join_cons_cons (sep a b : Text) (rest : List Text) :
    join sep (a :: b :: rest) = a ++ (sep ++ join sep (b :: rest)) := by
  simp [join, List.intercalate]

theorem join_append (sep : Text) {as bs : List Text} (ha : as ≠ []) (hb : bs ≠ []) :
    join sep (as ++ bs) = join sep as ++ (sep ++ join sep bs) := by
  induction as with
  | nil => exact absurd rfl ha
  | cons a as ih =>
    cases as with
    | nil =>
      obtain ⟨b, bs, rfl⟩ := List.exists_cons_of_ne_nil hb
      rw [List.singleton_append, join_cons_cons, join_singleton]
    | cons a' as =>
      rw [List.cons_append, List.cons_append, join_cons_cons, ← List.cons_append,
        ih (List.cons_ne_nil a' as), join_cons_cons]
      simp only [List.append_assoc]

theorem not_mem_join {c : Char} {sep : Text} {parts : List Text} (hsep : c ∉ sep)
    (h : ∀ p ∈ parts, c ∉ p) : c ∉ join sep parts := by
  induction parts with
  | nil => exact List.not_mem_nil
  | cons p parts ih =>
    have hp := h p List.mem_cons_self
    cases parts with
    | nil => rwa [join_singleton]
    | cons q parts =>
      have hrest := ih fun r hr => h r (List.mem_cons_of_mem p hr)
      rw [join_cons_cons, List.mem_append, List.mem_append]
      rintro (hc | hc | hc)
      · exact hp hc
      · exact hsep hc
      · exact hrest hc

/-- Lines joined by line feeds are read back. -/
theorem lines_join {ls : List Text} (h : ∀ l ∈ ls, l.OneLine ∧ l ≠ []) :
    lines (join "\n" ls) = ls := by
  induction ls with
  | nil => rfl
  | cons l rest ih =>
    obtain ⟨hl, hne⟩ := h l (by simp)
    have hrest := ih fun k hk => h k (List.mem_cons_of_mem l hk)
    cases rest with
    | nil => rw [join_singleton, lines_of_oneLine hl hne]
    | cons k rest =>
      have hjoin : join "\n" (l :: k :: rest) = l ++ '\n' :: join "\n" (k :: rest) :=
        join_cons_cons "\n" l k rest
      rw [hjoin, lines_append_newline hl, hrest]

/-! ## Blanks at the ends -/

theorem trimRight_cons {c : Char} (hc : isBlank c = false) (t : Text) :
    trimRight (c :: t) = c :: trimRight t := by
  simp only [trimRight, List.reverse_cons, List.dropWhile_append]
  split
  next h => simp_all
  next h => simp

theorem trimRight_front (t : Text) : trimRight t <+: t := by
  have h : t.reverse.dropWhile isBlank <:+ t.reverse := List.dropWhile_suffix _
  rw [← List.reverse_prefix, List.reverse_reverse] at h
  exact h

/-- Only what follows the last character that is not blank can be trimmed. -/
theorem trimRight_append {c : Char} (hc : isBlank c = false) (s t : Text) :
    trimRight (s ++ c :: t) = s ++ c :: trimRight t := by
  induction s with
  | nil => exact trimRight_cons hc t
  | cons d s ih =>
    have hne : (s ++ c :: t).reverse.dropWhile isBlank ≠ [] := by
      intro h
      rw [trimRight, h] at ih
      exact absurd ih (by simp)
    rw [List.cons_append, trimRight, List.reverse_cons, List.dropWhile_append,
      if_neg (by simpa using hne), List.reverse_append]
    rw [trimRight] at ih
    rw [ih]
    rfl

/-- Only what stands in front of the first character that is not blank can be trimmed. -/
theorem trimLeft_append_cons {c : Char} (hc : isBlank c = false) (s t : Text) :
    trimLeft (s ++ c :: t) = trimLeft s ++ c :: t := by
  induction s with
  | nil => exact List.dropWhile_cons_of_neg (by simp [hc])
  | cons d s ih =>
    by_cases hd : isBlank d = true
    · have hdrop : ∀ r, trimLeft (d :: r) = trimLeft r := fun r => List.dropWhile_cons_of_pos hd
      rw [List.cons_append, hdrop, hdrop, ih]
    · have hkeep : ∀ r, trimLeft (d :: r) = d :: r := fun r => List.dropWhile_cons_of_neg hd
      rw [List.cons_append, hkeep, hkeep, List.cons_append]

/-- A text that starts with no blank keeps its first character. -/
theorem trim_cons {c : Char} (hc : isBlank c = false) (t : Text) :
    trim (c :: t) = c :: trimRight t := by
  rw [trim, trimLeft, List.dropWhile_cons_of_neg (by simp [hc]), trimRight_cons hc]

theorem trim_blank_cons {c : Char} (hc : isBlank c = true) (t : Text) : trim (c :: t) = trim t := by
  rw [trim, trimLeft, List.dropWhile_cons_of_pos hc]; rfl

/-! ## Breaks -/

theorem consFirst_ne_nil (c : Char) (ls : List Text) : consFirst c ls ≠ [] := by
  cases ls <;> simp [consFirst]

theorem consFirst_append (c : Char) {ls : List Text} (h : ls ≠ []) (more : List Text) :
    consFirst c (ls ++ more) = consFirst c ls ++ more := by
  obtain ⟨l, ls, rfl⟩ := List.exists_cons_of_ne_nil h
  rfl

theorem lines_ne_nil {t : Text} (h : t ≠ []) : lines t ≠ [] := by
  fun_cases lines t with
  | case1 => exact absurd rfl h
  | case2 r => exact List.cons_ne_nil _ _
  | case3 c r => exact List.cons_ne_nil _ _
  | case4 c r => exact consFirst_ne_nil c _

/-- A carriage return closes its line, together with the line feed behind it if there is one. -/
theorem lines_return (t : Text) : lines ('\r' :: t) = [] :: lines (dropPrefix "\n" t) := by
  rcases t with _ | ⟨c, t⟩
  · rfl
  · by_cases hc : c = '\n'
    · subst hc
      rfl
    · rw [show dropPrefix "\n" (c :: t) = c :: t from dropPrefix_cons_ne (Ne.symm hc) [] t]
      conv => lhs; unfold lines
      split
      · next heq => exact absurd heq (by simp)
      · next heq => exact absurd (List.cons.inj (List.cons.inj heq).2).1 hc
      · next heq =>
        obtain ⟨rfl, rfl⟩ := List.cons.inj heq
        rfl

/-- Behind a line feed the lines start anew. -/
theorem lines_append_break (s t : Text) :
    lines (s ++ '\n' :: t) = lines (s ++ ['\n']) ++ lines t := by
  fun_induction lines s with
  | case1 => rw [List.nil_append, List.nil_append, lines_newline, lines_newline]; rfl
  | case2 r ih =>
    have hbreak : ∀ u, lines ('\r' :: '\n' :: u) = [] :: lines u := fun u => rfl
    rw [List.cons_append, List.cons_append, List.cons_append, List.cons_append, hbreak, hbreak, ih,
      List.cons_append]
  | case3 c r hreturn hc ih =>
    by_cases hr : c = '\r'
    · subst hr
      rcases r with _ | ⟨d, r⟩
      · rfl
      · have hd : d ≠ '\n' := fun h => hreturn r rfl (by rw [h])
        have hdrop : ∀ u, dropPrefix "\n" (d :: u) = d :: u := dropPrefix_cons_ne (Ne.symm hd) []
        simp only [List.cons_append, lines_return, hdrop] at ih ⊢
        rw [ih]
    · rw [List.cons_append, List.cons_append, lines_cons_ne hr, lines_cons_ne hr, if_pos hc,
        if_pos hc, ih, List.cons_append]
  | case4 c r hreturn hc ih =>
    have hc : isLineBreak c = false := by simpa using hc
    have hne : lines (r ++ ['\n']) ≠ [] := lines_ne_nil (by simp)
    rw [List.cons_append, List.cons_append, lines_cons hc, lines_cons hc, ih,
      consFirst_append c hne]

theorem oneLine_of_mem_lines {t l : Text} (hl : l ∈ lines t) : l.OneLine := by
  fun_induction lines t generalizing l with
  | case1 => exact absurd hl List.not_mem_nil
  | case2 r ih =>
    rcases List.mem_cons.mp hl with rfl | hl
    · exact oneLine_nil
    · exact ih hl
  | case3 c r hreturn hc ih =>
    rcases List.mem_cons.mp hl with rfl | hl
    · exact oneLine_nil
    · exact ih hl
  | case4 c r hreturn hc ih =>
    have hc : isLineBreak c = false := by simpa using hc
    generalize lines r = ls at hl ih
    rcases ls with _ | ⟨k, ls⟩
    · obtain rfl := List.mem_singleton.mp hl
      exact oneLine_cons.mpr ⟨hc, oneLine_nil⟩
    · rcases List.mem_cons.mp hl with rfl | hl
      · exact oneLine_cons.mpr ⟨hc, ih List.mem_cons_self⟩
      · exact ih (List.mem_cons_of_mem k hl)

/-- A text of one line starts the first line of every text that it starts. -/
theorem lines_oneLine_append {p : Text} (hp : p.OneLine) (hne : p ≠ []) (t : Text) :
    ∃ l ls, lines (p ++ t) = (p ++ l) :: ls := by
  induction p with
  | nil => exact absurd rfl hne
  | cons c p ih =>
    obtain ⟨hc, hp⟩ := oneLine_cons.mp hp
    rw [List.cons_append, lines_cons hc]
    by_cases hnil : p = []
    · subst hnil
      rw [List.nil_append]
      cases lines t with
      | nil => exact ⟨[], [], rfl⟩
      | cons l ls => exact ⟨l, ls, rfl⟩
    · obtain ⟨l, ls, h⟩ := ih hp hnil
      exact ⟨l, ls, by rw [h]; rfl⟩

/-- Behind a line boundary the lines of a text are still there. -/
theorem mem_lines_cons_break {d : Char} (hd : isLineBreak d = true) {t l : Text}
    (h : l ∈ lines t) : l ∈ lines (d :: t) := by
  by_cases hr : d = '\r'
  · subst hr
    rw [lines_return]
    rcases t with _ | ⟨e, t⟩
    · exact List.mem_cons_of_mem _ h
    · by_cases he : e = '\n'
      · subst he
        rwa [lines_newline] at h
      · rw [show dropPrefix "\n" (e :: t) = e :: t from dropPrefix_cons_ne (Ne.symm he) [] t]
        exact List.mem_cons_of_mem _ h
  · rw [lines_cons_ne hr, if_pos hd]
    exact List.mem_cons_of_mem _ h

/-- A stretch that breaks no line stands in a line, and in front of it there only what stands in front
of it in the text. -/
theorem exists_line_of_stretch {p : Text} (hp : p.OneLine) (hne : p ≠ []) (front rest : Text) :
    ∃ before after, before ++ (p ++ after) ∈ lines (front ++ (p ++ rest)) ∧ before ⊆ front := by
  induction front with
  | nil =>
    obtain ⟨l, ls, hlines⟩ := lines_oneLine_append hp hne rest
    refine ⟨[], l, ?_, List.nil_subset _⟩
    simpa using hlines ▸ List.mem_cons_self
  | cons d front ih =>
    obtain ⟨before, after, hmem, hsub⟩ := ih
    by_cases hd : isLineBreak d = true
    · exact ⟨before, after, mem_lines_cons_break hd hmem, List.subset_cons_of_subset d hsub⟩
    · rw [List.cons_append, lines_cons (by simpa using hd)]
      generalize lines (front ++ (p ++ rest)) = ls at hmem
      rcases ls with _ | ⟨l, ls⟩
      · exact absurd hmem List.not_mem_nil
      · rcases List.mem_cons.mp hmem with hfirst | hlater
        · refine ⟨d :: before, after, ?_, List.cons_subset_cons d hsub⟩
          rw [← hfirst]
          exact List.mem_cons_self
        · exact ⟨before, after, List.mem_cons_of_mem _ hlater, List.subset_cons_of_subset d hsub⟩

theorem exists_line_at {c : Char} (hc : isLineBreak c = false) (front rest : Text) :
    ∃ before after, before ++ c :: after ∈ lines (front ++ c :: rest) ∧ before ⊆ front :=
  exists_line_of_stretch (p := [c]) (by simp [hc]) (List.cons_ne_nil _ _) front rest

theorem prefix_of_lines {t l : Text} {ls : List Text} (h : lines t = l :: ls) : l <+: t := by
  fun_induction lines t generalizing l ls with
  | case1 => exact absurd h (by simp)
  | case2 r ih => simp [← (List.cons.inj h).1]
  | case3 c r hreturn hc ih => simp [← (List.cons.inj h).1]
  | case4 c r hreturn hc ih =>
    rcases hlines : lines r with _ | ⟨k, ks⟩
    · rw [hlines] at h
      simp [← (List.cons.inj h).1]
    · rw [hlines] at h
      rw [← (List.cons.inj h).1]
      exact List.cons_prefix_cons.mpr ⟨rfl, ih hlines⟩

theorem infix_of_mem_lines {t l : Text} (h : l ∈ lines t) : l <:+: t := by
  fun_induction lines t generalizing l with
  | case1 => exact absurd h List.not_mem_nil
  | case2 r ih =>
    rcases List.mem_cons.mp h with rfl | h
    · exact List.nil_infix
    · exact ((ih h).trans (List.suffix_cons '\n' r).isInfix).trans (List.suffix_cons '\r' _).isInfix
  | case3 c r hreturn hc ih =>
    rcases List.mem_cons.mp h with rfl | h
    · exact List.nil_infix
    · exact (ih h).trans (List.suffix_cons c r).isInfix
  | case4 c r hreturn hc ih =>
    rcases hlines : lines r with _ | ⟨k, ks⟩
    · rw [hlines] at h
      rw [List.mem_singleton.mp h]
      exact (List.prefix_append [c] r).isInfix
    · rw [hlines] at h
      rcases List.mem_cons.mp h with rfl | h
      · exact (List.cons_prefix_cons.mpr ⟨rfl, prefix_of_lines hlines⟩).isInfix
      · have hk : l ∈ lines r := hlines ▸ List.mem_cons_of_mem k h
        exact (ih hk).trans (List.suffix_cons c r).isInfix

/-- What breaks no line occurs in a text just where it occurs in one of its lines. -/
theorem infix_iff_exists_line {p t : Text} (hp : p.OneLine) (hne : p ≠ []) :
    p <:+: t ↔ ∃ l ∈ lines t, p <:+: l := by
  constructor
  · rintro ⟨front, rest, rfl⟩
    obtain ⟨before, after, hmem, -⟩ := exists_line_of_stretch hp hne front rest
    rw [List.append_assoc]
    exact ⟨_, hmem, before, after, List.append_assoc _ _ _⟩
  · rintro ⟨l, hl, hpl⟩
    exact hpl.trans (infix_of_mem_lines hl)

/-! ## Lines with their line feeds -/

theorem lines_unlines_append {ls : List Text} (h : ∀ l ∈ ls, l.OneLine) (t : Text) :
    lines (unlines ls ++ t) = ls ++ lines t := by
  induction ls with
  | nil => rfl
  | cons l ls ih =>
    have hcons : unlines (l :: ls) ++ t = l ++ '\n' :: (unlines ls ++ t) := by simp [unlines]
    rw [hcons, lines_append_newline (h l List.mem_cons_self),
      ih fun k hk => h k (List.mem_cons_of_mem l hk), List.cons_append]

theorem join_concat (ls : List Text) (l : Text) : join "\n" (ls ++ [l]) = unlines ls ++ l := by
  induction ls with
  | nil => rw [List.nil_append, join_singleton]; rfl
  | cons k ls ih =>
    obtain ⟨m, ms, hm⟩ := List.exists_cons_of_ne_nil (show ls ++ [l] ≠ [] by simp)
    rw [List.cons_append, hm, join_cons_cons, ← hm, ih]
    simp [unlines]

/-- Parts without their separator are found again between its occurrences. -/
theorem splitOn_join_char {c : Char} {ls : List Text} (hne : ls ≠ []) (h : ∀ l ∈ ls, c ∉ l) :
    splitOn c (join [c] ls) = ls := by
  have hone : ∀ l ∈ ls, splitOn c l = [l] := fun l hl =>
    splitBy_of_forall fun d hd => beq_eq_false_iff_ne.mpr fun heq => h l hl (heq ▸ hd)
  clear h
  induction ls with
  | nil => exact absurd rfl hne
  | cons l ls ih =>
    have hl := hone l List.mem_cons_self
    cases ls with
    | nil => rw [join_singleton, hl]
    | cons k ls =>
      have hcut : splitOn c (l ++ c :: join [c] (k :: ls)) =
          splitOn c l ++ splitOn c (join [c] (k :: ls)) := splitBy_append (by simp) _ _
      rw [join_cons_cons]
      refine hcut.trans ?_
      rw [hl, ih (List.cons_ne_nil _ _) fun m hm => hone m (List.mem_cons_of_mem l hm)]
      rfl

/-- Lines that are joined by line feeds are found again between them. -/
theorem splitOn_join {ls : List Text} (hne : ls ≠ []) (h : ∀ l ∈ ls, '\n' ∉ l) :
    splitOn '\n' (join "\n" ls) = ls := splitOn_join_char hne h

end ChangeReview.Text

import ChangeReview.Proofs.Value.RoundTrip
import ChangeReview.Reply.Document

/-!
# Spans of written values

The scan for balanced brackets keeps its place over a written value: quotes hide what is in them,
and every bracket that opens is closed. So the span from a written object's brace is that object,
and a document that breaks off leaves its first bracket open.
-/
namespace ChangeReview.Reply

open Value (InQuotes IsAtom isAtomChar AllGap Layout writeText)

/-- The brackets of lists, or those of objects. -/
inductive IsPair : Char → Char → Prop where
  | list : IsPair '[' ']'
  | object : IsPair '\x7b' '\x7d'

variable {opening closing : Char}

/-- The scan reads the text from outside quotes to outside quotes and keeps its depth. -/
def Passes (opening closing : Char) (t : Text) : Prop :=
  ∀ (taken depth : Nat) (rest : Text), 1 ≤ depth →
    spanLength opening closing taken depth .outside (t ++ rest) =
      spanLength opening closing (taken + t.length) depth .outside rest

/-- The character is neither a quote nor one of the brackets. -/
def IsPlain (opening closing c : Char) : Prop := c ≠ '"' ∧ c ≠ opening ∧ c ≠ closing

instance (c : Char) : Decidable (IsPlain opening closing c) :=
  inferInstanceAs (Decidable (_ ∧ _ ∧ _))

theorem spanLength_plain {c : Char} (hc : IsPlain opening closing c) (taken depth : Nat)
    (rest : Text) : spanLength opening closing taken depth .outside (c :: rest) =
      spanLength opening closing (taken + 1) depth .outside rest := by
  obtain ⟨hquote, hopen, hclose⟩ := hc
  rw [spanLength, if_neg (by simpa using hquote), if_neg (by simpa using hopen),
    if_neg (by simpa using hclose)]

/-- Behind the text between two quotes the scan is at the second one. -/
theorem spanLength_inQuotes {body : Text} (h : InQuotes body) (taken depth : Nat) (rest : Text) :
    spanLength opening closing taken depth .inside (body ++ rest) =
      spanLength opening closing (taken + body.length) depth .inside rest := by
  induction h generalizing taken with
  | nil => rfl
  | plain hquote hback _ ih =>
    rw [List.cons_append, spanLength, if_neg (by simpa using hback), if_neg (by simpa using hquote),
      ih, List.length_cons]
    congr 1
    omega
  | escape _ ih =>
    rw [List.cons_append, List.cons_append, spanLength, if_pos (by decide), spanLength, ih,
      List.length_cons, List.length_cons]
    congr 1
    omega

namespace Passes

theorem nil : Passes opening closing [] := fun _ _ _ _ => rfl

theorem append {s t : Text} (hs : Passes opening closing s) (ht : Passes opening closing t) :
    Passes opening closing (s ++ t) := by
  intro taken depth rest hdepth
  rw [List.append_assoc, hs taken depth _ hdepth, ht _ depth rest hdepth, List.length_append,
    Nat.add_assoc]

theorem of_plain {t : Text} (h : ∀ c ∈ t, IsPlain opening closing c) :
    Passes opening closing t := by
  induction t with
  | nil => exact nil
  | cons c t ih =>
    intro taken depth rest hdepth
    rw [List.cons_append, spanLength_plain (h c List.mem_cons_self),
      ih (fun d hd => h d (List.mem_cons_of_mem c hd)) _ depth rest hdepth, List.length_cons]
    congr 1
    omega

theorem of_char {c : Char} (h : IsPlain opening closing c) : Passes opening closing [c] := by
  apply of_plain
  intro d hd
  rw [List.mem_singleton.mp hd]
  exact h

theorem quoted {body : Text} (h : InQuotes body) :
    Passes opening closing ('"' :: body ++ ['"']) := by
  intro taken depth rest _
  rw [List.append_assoc, List.cons_append, spanLength, if_pos (by decide), spanLength_inQuotes h]
  show spanLength opening closing _ depth .inside ('"' :: rest) = _
  rw [spanLength, if_neg (by decide), if_pos (by decide)]
  simp only [List.length_append, List.length_cons, List.length_nil]
  congr 1
  omega

/-- A pair of brackets around what keeps the depth keeps it too. -/
theorem enclosed (hpair : IsPair opening closing) {t : Text} (h : Passes opening closing t) :
    Passes opening closing (opening :: t ++ [closing]) := by
  intro taken depth rest hdepth
  have hopen : spanLength opening closing taken depth .outside (opening :: (t ++ closing :: rest)) =
      spanLength opening closing (taken + 1) (depth + 1) .outside (t ++ closing :: rest) := by
    cases hpair <;> rfl
  have hclose : ∀ n, spanLength opening closing n (depth + 1) .outside (closing :: rest) =
      spanLength opening closing (n + 1) depth .outside rest := by
    intro n
    have hdeep : ¬ depth + 1 ≤ 1 := by omega
    cases hpair <;> rw [spanLength, if_neg (by decide), if_neg (by decide), if_pos (by decide),
      if_neg hdeep, Nat.add_sub_cancel]
  rw [List.append_assoc, List.cons_append, List.singleton_append, hopen, h _ _ _ (by omega), hclose]
  simp only [List.length_append, List.length_cons, List.length_nil]
  congr 1
  omega

end Passes

/-! ## Written values -/

theorem isPlain_atomChar (hpair : IsPair opening closing) {c : Char} (hc : isAtomChar c = true) :
    IsPlain opening closing c := by
  have hne := fun d (hd : isAtomChar d = false) => Value.isAtomChar_ne hc hd
  cases hpair
  · exact ⟨hne _ (by decide), hne _ (by decide), hne _ (by decide)⟩
  · exact ⟨hne _ (by decide), hne _ (by decide), hne _ (by decide)⟩

theorem isPlain_gap (hpair : IsPair opening closing) {c : Char} (hc : Value.isGap c = true) :
    IsPlain opening closing c := by
  simp only [Value.isGap, Bool.or_eq_true, beq_iff_eq] at hc
  cases hpair <;> rcases hc with ((rfl | rfl) | rfl) | rfl <;> decide

section Written

variable (hpair : IsPair opening closing)

include hpair

theorem passes_isAtom {t : Text} (h : IsAtom t) : Passes opening closing t :=
  .of_plain fun c hc => isPlain_atomChar hpair (h c hc)

theorem passes_allGap {t : Text} (h : AllGap t) : Passes opening closing t :=
  .of_plain fun c hc => isPlain_gap hpair (h c hc)

omit hpair in
theorem passes_writeText (t : Text) : Passes opening closing (writeText t) :=
  .quoted (Value.inQuotes_escaped t)

/-- Brackets of either kind around what keeps the depth. -/
theorem passes_brackets {o c : Char} (h : IsPair o c) {t : Text} (ht : Passes opening closing t) :
    Passes opening closing (o :: t ++ [c]) := by
  by_cases hsame : o = opening
  · subst hsame
    have hclosing : c = closing := by cases h <;> cases hpair <;> rfl
    subst hclosing
    exact ht.enclosed hpair
  · have hopen : Passes opening closing [o] := .of_char (by
      cases h <;> cases hpair <;> first | exact absurd rfl hsame | decide)
    have hclose : Passes opening closing [c] := .of_char (by
      cases h <;> cases hpair <;> first | exact absurd rfl hsame | decide)
    exact (hopen.append ht).append hclose

omit hpair in
theorem passes_join {sep : Text} (hsep : Passes opening closing sep) {ws : List Text}
    (h : ∀ w ∈ ws, Passes opening closing w) : Passes opening closing (Text.join sep ws) := by
  induction ws with
  | nil => exact .nil
  | cons w ws ih =>
    have hw := h w List.mem_cons_self
    have hrest := ih fun x hx => h x (List.mem_cons_of_mem w hx)
    cases ws with
    | nil => rwa [Text.join_singleton]
    | cons x ws =>
      rw [Text.join_cons_cons]
      exact hw.append (hsep.append hrest)

variable {layout : Layout} (hl : layout.IsBlank)

include hl

theorem passes_separator (level : Nat) : Passes opening closing (layout.separator level) := by
  obtain ⟨gap, heq, hgap⟩ := hl.exists_separator level
  have hcomma : Passes opening closing [','] := .of_char (by cases hpair <;> decide)
  rw [heq]
  exact hcomma.append (passes_allGap hpair hgap)

/-- What stands between the brackets of some items keeps the depth if the items do. -/
theorem exists_enclose (o c : Char) (level : Nat) {ws : List Text}
    (hws : ∀ w ∈ ws, Passes opening closing w) :
    ∃ body, layout.enclose level o c ws = o :: body ++ [c] ∧ Passes opening closing body := by
  unfold Layout.enclose
  split
  · exact ⟨[], rfl, .nil⟩
  · have hbreak := fun n => passes_allGap hpair (hl.allGap_break n)
    have hjoin := passes_join (passes_separator hpair hl (level + 1)) hws
    exact ⟨_, by simp, ((hbreak (level + 1)).append hjoin).append (hbreak level)⟩

theorem passes_enclose {o c : Char} (h : IsPair o c) (level : Nat) {ws : List Text}
    (hws : ∀ w ∈ ws, Passes opening closing w) :
    Passes opening closing (layout.enclose level o c ws) := by
  obtain ⟨body, heq, hbody⟩ := exists_enclose hpair hl o c level hws
  rw [heq]
  exact passes_brackets hpair h hbody

end Written

mutual

/-- The scan keeps its place over every written value. -/
theorem passes_writeAt (hpair : IsPair opening closing) {layout : Layout} (hl : layout.IsBlank)
    (level : Nat) : (depth : Nat) → (v : Value) → Value.Readable depth v →
      Passes opening closing (Value.writeAt layout level v)
  | _, .null, _ => passes_isAtom hpair Value.atomForm_null.isAtom.1
  | _, .bool true, _ => passes_isAtom hpair (Value.atomForm_bool true).isAtom.1
  | _, .bool false, _ => passes_isAtom hpair (Value.atomForm_bool false).isAtom.1
  | _, .int n, _ => passes_isAtom hpair (Value.isAtom_ofInt n)
  | _, .float _, h => by
    rw [Value.Readable] at h
    exact passes_isAtom hpair (Value.atomForm_float h).isAtom.1
  | _, .text t, _ => passes_writeText t
  | 0, .list _, h | 0, .object _, h => absurd h (by simp [Value.Readable])
  | depth + 1, .list items, h => by
    rw [Value.Readable] at h
    exact passes_enclose hpair hl .list level (passes_writeItems hpair hl (level + 1) depth items h)
  | depth + 1, .object ms, h => by
    rw [Value.Readable] at h
    exact passes_enclose hpair hl .object level
      (passes_writeMembers hpair hl (level + 1) depth ms h.2)

theorem passes_writeItems (hpair : IsPair opening closing) {layout : Layout}
    (hl : layout.IsBlank) (level : Nat) : (depth : Nat) → (items : List Value) →
      Value.ReadableItems depth items →
        ∀ w ∈ Value.writeItems layout level items, Passes opening closing w
  | _, [], _, _, hw => absurd hw List.not_mem_nil
  | depth, v :: items, h, w, hw => by
    rw [Value.ReadableItems] at h
    rw [Value.writeItems] at hw
    rcases List.mem_cons.mp hw with rfl | hw
    · exact passes_writeAt hpair hl level depth v h.1
    · exact passes_writeItems hpair hl level depth items h.2 w hw

theorem passes_writeMembers (hpair : IsPair opening closing) {layout : Layout}
    (hl : layout.IsBlank) (level : Nat) : (depth : Nat) → (ms : List (Text × Value)) →
      Value.ReadableMembers depth ms →
        ∀ w ∈ Value.writeMembers layout level ms, Passes opening closing w
  | _, [], _, _, hw => absurd hw List.not_mem_nil
  | depth, (key, v) :: ms, h, w, hw => by
    rw [Value.ReadableMembers] at h
    rw [Value.writeMembers] at hw
    rcases List.mem_cons.mp hw with rfl | hw
    · have hmark : Passes opening closing [':'] := .of_char (by cases hpair <;> decide)
      have hcolon : Passes opening closing ": " :=
        hmark.append (.of_char (by cases hpair <;> decide))
      exact ((passes_writeText key).append hcolon).append (passes_writeAt hpair hl level depth v h.1)
    · exact passes_writeMembers hpair hl level depth ms h.2 w hw

end

/-! ## Spans -/

theorem spanLength_open (hpair : IsPair opening closing) (t : Text) :
    spanLength opening closing 0 0 .outside (opening :: t) =
      spanLength opening closing 1 1 .outside t := by
  cases hpair <;> rfl

/-- Brackets around what keeps the depth are a span. -/
theorem spanLength_enclosed (hpair : IsPair opening closing) {t : Text}
    (h : Passes opening closing t) (rest : Text) :
    spanLength opening closing 0 0 .outside (opening :: t ++ closing :: rest) =
      some (t.length + 2) := by
  rw [List.cons_append, spanLength_open hpair, h 1 1 _ (Nat.le_refl 1)]
  cases hpair <;> simp [spanLength] <;> omega

/-- A bracket with nothing behind it but what keeps the depth is left open. -/
theorem spanLength_unclosed (hpair : IsPair opening closing) {t : Text}
    (h : Passes opening closing t) :
    spanLength opening closing 0 0 .outside (opening :: t) = none := by
  rw [spanLength_open hpair, ← List.append_nil t, h 1 1 [] (Nat.le_refl 1)]
  rfl

/-- What comes behind a span does not change it. -/
theorem spanLength_append {taken depth n : Nat} {q : Quoting} {u : Text}
    (h : spanLength opening closing taken depth q u = some n) (rest : Text) :
    spanLength opening closing taken depth q (u ++ rest) = some n := by
  induction u generalizing taken depth q with
  | nil => cases q <;> exact absurd h (by simp [spanLength])
  | cons c u ih =>
    cases q with
    | escaped => exact ih h
    | inside => exact ih h
    | outside =>
      rw [List.cons_append]
      rw [spanLength] at h ⊢
      split
      · next hq => rw [if_pos hq] at h; exact ih h
      · next hq =>
        rw [if_neg hq] at h
        split
        · next ho => rw [if_pos ho] at h; exact ih h
        · next ho =>
          rw [if_neg ho] at h
          split
          · next hc =>
            rw [if_pos hc] at h
            split
            · next hd => rwa [if_pos hd] at h
            · next hd => rw [if_neg hd] at h; exact ih h
          · next hc => rw [if_neg hc] at h; exact ih h

/-- A text without the closing bracket closes nothing. -/
theorem spanLength_append_of_not_mem {s : Text} (hs : closing ∉ s) (taken depth : Nat)
    (q : Quoting) (t : Text) : spanLength opening closing taken depth q (t ++ s) =
      spanLength opening closing taken depth q t := by
  induction t generalizing taken depth q with
  | nil =>
    rw [List.nil_append]
    induction s generalizing taken depth q with
    | nil => rfl
    | cons c s ih =>
      obtain ⟨hc, hs⟩ : closing ≠ c ∧ closing ∉ s := by simpa using hs
      cases q with
      | escaped => exact ih hs _ _ _
      | inside => exact ih hs _ _ _
      | outside => simp [spanLength, Ne.symm hc, ih hs]
  | cons c t ih => cases q <;> simp only [List.cons_append, spanLength, ih]

theorem spanLength_le {taken depth n : Nat} {q : Quoting} {t : Text}
    (h : spanLength opening closing taken depth q t = some n) : n ≤ taken + t.length := by
  induction t generalizing taken depth q with
  | nil => cases q <;> exact absurd h (by simp [spanLength])
  | cons c t ih =>
    suffices hshort : n ≤ taken + 1 + t.length by
      rw [List.length_cons]
      omega
    cases q with
    | escaped => exact ih h
    | inside => exact ih h
    | outside =>
      rw [spanLength] at h
      split_ifs at h with hquote hopen hclose hlast
      · exact ih h
      · exact ih h
      · obtain rfl := Option.some.inj h
        omega
      · exact ih h
      · exact ih h

/-- A bracket that is left open is so in every front of the text. -/
theorem spanLength_front {taken depth : Nat} {q : Quoting} {u t : Text} (hu : u <+: t)
    (h : spanLength opening closing taken depth q t = none) :
    spanLength opening closing taken depth q u = none := by
  obtain ⟨rest, rfl⟩ := hu
  cases hspan : spanLength opening closing taken depth q u with
  | none => rfl
  | some n => exact absurd (spanLength_append hspan rest) (by simp [h])

/-- The text from its first character on, which is a bracket, to the one that closes it. -/
def IsSpan (opening closing : Char) (t span : Text) : Prop :=
  ∃ n, spanLength opening closing 0 0 .outside t = some n ∧ span = t.take n

theorem isSpan_enclosed (hpair : IsPair opening closing) {t : Text}
    (h : Passes opening closing t) (rest : Text) :
    IsSpan opening closing (opening :: t ++ closing :: rest) (opening :: t ++ [closing]) := by
  refine ⟨t.length + 2, spanLength_enclosed hpair h rest, ?_⟩
  have hlength : t.length + 2 = (opening :: t ++ [closing]).length := by simp
  have hsplit : opening :: t ++ closing :: rest = opening :: t ++ [closing] ++ rest := by simp
  rw [hlength, hsplit, List.take_left]

/-- A written object is a span. -/
theorem isSpan_object {layout : Layout} (hl : layout.IsBlank) (level : Nat) {depth : Nat}
    {ms : List (Text × Value)} (h : Value.Readable depth (.object ms)) (rest : Text) :
    IsSpan '\x7b' '\x7d' (Value.writeAt layout level (.object ms) ++ rest)
      (Value.writeAt layout level (.object ms)) := by
  rcases depth with _ | depth
  · exact absurd h (by simp [Value.Readable])
  rw [Value.Readable] at h
  obtain ⟨body, heq, hbody⟩ := exists_enclose .object hl '\x7b' '\x7d' level
    (passes_writeMembers .object hl (level + 1) depth ms h.2)
  have hspan := isSpan_enclosed .object hbody rest
  rw [Value.writeAt, heq, List.append_assoc]
  exact hspan

/-- The first span starts at some opening bracket of the text. -/
theorem firstSpan_eq_some {t span : Text} (h : firstSpan opening closing t = some span) :
    ∃ front s, t = front ++ opening :: s ∧ IsSpan opening closing (opening :: s) span := by
  induction t with
  | nil => exact absurd h (by simp [firstSpan])
  | cons c r ih =>
    have hlater : firstSpan opening closing r = some span →
        ∃ front s, c :: r = front ++ opening :: s ∧ IsSpan opening closing (opening :: s) span := by
      intro h
      obtain ⟨front, s, rfl, hs⟩ := ih h
      exact ⟨c :: front, s, rfl, hs⟩
    rw [firstSpan] at h
    split at h
    · next hc =>
      obtain rfl : c = opening := by simpa using hc
      split at h
      · next n hn => exact ⟨[], r, rfl, n, hn, (Option.some.inj h).symm⟩
      · exact hlater h
    · exact hlater h

/-- Where a bracket closes, its span is the first one. -/
theorem firstSpan_of_isSpan {t span : Text} (h : IsSpan opening closing (opening :: t) span) :
    firstSpan opening closing (opening :: t) = some span := by
  obtain ⟨n, hn, rfl⟩ := h
  rw [firstSpan, if_pos (by simp), hn]

/-- Behind a bracket that is left open the first span is the same. -/
theorem firstSpan_unclosed {t : Text}
    (h : spanLength opening closing 0 0 .outside (opening :: t) = none) :
    firstSpan opening closing (opening :: t) = firstSpan opening closing t := by
  rw [firstSpan, if_pos (by simp), h]

theorem firstSpan_cons_ne {c : Char} (hc : c ≠ opening) (t : Text) :
    firstSpan opening closing (c :: t) = firstSpan opening closing t := by
  rw [firstSpan, if_neg (by simpa using hc)]

/-- Behind a text without the opening bracket the first span is the same. -/
theorem firstSpan_behind {p : Text} (hp : opening ∉ p) (t : Text) :
    firstSpan opening closing (p ++ t) = firstSpan opening closing t := by
  induction p with
  | nil => rfl
  | cons c p ih =>
    obtain ⟨hc, hp⟩ : opening ≠ c ∧ opening ∉ p := by simpa using hp
    rw [List.cons_append, firstSpan_cons_ne (Ne.symm hc), ih hp]

/-- In front of a text without brackets the first span is the same. -/
theorem firstSpan_append_of_not_mem {s : Text} (hopening : opening ∉ s) (hclosing : closing ∉ s)
    (t : Text) : firstSpan opening closing (t ++ s) = firstSpan opening closing t := by
  induction t with
  | nil => simpa using firstSpan_behind hopening []
  | cons c t ih =>
    rw [List.cons_append, firstSpan, firstSpan, ← List.cons_append,
      spanLength_append_of_not_mem hclosing, ih]
    cases hspan : spanLength opening closing 0 0 .outside (c :: t) with
    | none => rfl
    | some n =>
      have hn : n ≤ (c :: t).length := by simpa using spanLength_le hspan
      dsimp only
      rw [List.take_append_of_le_length hn]

/-- Where there is no span there is none farther on. -/
theorem firstSpan_eq_none_tail {c : Char} {t : Text}
    (h : firstSpan opening closing (c :: t) = none) : firstSpan opening closing t = none := by
  rw [firstSpan] at h
  split at h
  · split at h
    · exact absurd h (by simp)
    · exact h
  · exact h

end ChangeReview.Reply

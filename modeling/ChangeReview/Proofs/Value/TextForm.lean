import ChangeReview.Value.Reader
import ChangeReview.Value.Writer

/-!
# Texts between quotes

What the writer puts between two quotes, the reader takes for the same text again. Whatever the
reader takes, the closing quote is the first one that no backslash hides, so a text that breaks off
before its closing quote is never read.
-/
namespace ChangeReview.Value

/-! ## Hexadecimal units -/

theorem ofHex_succ {width : Nat} (hw : 1 ≤ width) (n : Nat) :
    Text.ofHex (width + 1) n = Text.ofHex width (n / 16) ++ [Nat.digitChar (n % 16)] := by
  unfold Text.ofHex
  by_cases h : n < 16
  · have hzero : n / 16 = 0 := by omega
    have hmod : n % 16 = n := by omega
    rw [Nat.toDigits_of_lt_base h, hzero, hmod, Nat.toDigits_zero]
    obtain ⟨w, rfl⟩ : ∃ w, width = w + 1 := ⟨width - 1, by omega⟩
    simp [List.replicate_succ']
  · rw [Nat.toDigits_of_base_le (by omega) (by omega)]
    simp

/-- A UTF-16 unit is written as its four digits. -/
theorem ofHex_four {n : Nat} (hn : n < 0x10000) :
    Text.ofHex 4 n = [Nat.digitChar (n / 4096), Nat.digitChar (n / 256 % 16),
      Nat.digitChar (n / 16 % 16), Nat.digitChar (n % 16)] := by
  have hone : Text.ofHex 1 (n / 4096) = [Nat.digitChar (n / 4096)] := by
    rw [Text.ofHex, Nat.toDigits_of_lt_base (by omega)]
    rfl
  rw [ofHex_succ (by omega), ofHex_succ (by omega), ofHex_succ (by omega)]
  simp only [Nat.div_div_eq_div_mul, Nat.reduceMul, hone, List.cons_append, List.nil_append]

theorem hexDigit?_digitChar : ∀ d < 16, hexDigit? (Nat.digitChar d) = some d := by decide

theorem hexUnit?_ofHex {n : Nat} (hn : n < 0x10000) (rest : Text) :
    hexUnit? (Text.ofHex 4 n ++ rest) = some (n, rest) := by
  have hvalue : ((n / 4096 * 16 + n / 256 % 16) * 16 + n / 16 % 16) * 16 + n % 16 = n := by omega
  rw [ofHex_four hn]
  simp only [List.cons_append, List.nil_append, hexUnit?]
  rw [hexDigit?_digitChar _ (by omega), hexDigit?_digitChar _ (by omega),
    hexDigit?_digitChar _ (by omega), hexDigit?_digitChar _ (by omega)]
  simp [hvalue]

/-- No character is a lone surrogate. -/
theorem not_surrogate (c : Char) : isHighUnit c.toNat = false ∧ isLowUnit c.toNat = false := by
  have hvalid : c.toNat < 0xD800 ∨ 0xDFFF < c.toNat := by
    rcases c.valid with h | ⟨h, -⟩
    · exact .inl h
    · exact .inr h
  simp only [isHighUnit, isLowUnit, Bool.and_eq_false_iff, decide_eq_false_iff_not]
  omega

theorem toNat_lt (c : Char) : c.toNat < 0x110000 := by
  rcases c.valid with h | ⟨-, h⟩
  · exact Nat.lt_trans h (by decide)
  · exact h

/-! ## Escapes -/

/-- A unit that asks for no second one stands for its character. -/
theorem readUnits?_one {n : Nat} {t rest : Text} (hunit : hexUnit? t = some (n, rest))
    (hhigh : isHighUnit n = false) : readUnits? t = some (unitChar n, rest) := by
  simp [readUnits?, hunit, hhigh]

theorem readUnits?_two {n m : Nat} {t more rest : Text}
    (hfirst : hexUnit? t = some (n, '\\' :: 'u' :: more)) (hsecond : hexUnit? more = some (m, rest))
    (hhigh : isHighUnit n = true) (hlow : isLowUnit m = true) :
    readUnits? t = some (Char.ofNat (0x10000 + (n - 0xD800) * 0x400 + (m - 0xDC00)), rest) := by
  simp [readUnits?, hfirst, hsecond, hhigh, hlow]

theorem unitChar_toNat (c : Char) : unitChar c.toNat = c := by
  obtain ⟨hhigh, hlow⟩ := not_surrogate c
  simp [unitChar, hhigh, hlow]

/-- The two units of a number beyond one unit stand for the number. -/
theorem surrogates {n : Nat} (hlow : 0x10000 ≤ n) (hhigh : n < 0x110000) :
    isHighUnit (0xD800 + (n - 0x10000) / 0x400) = true ∧
      isLowUnit (0xDC00 + (n - 0x10000) % 0x400) = true ∧
      0x10000 + (0xD800 + (n - 0x10000) / 0x400 - 0xD800) * 0x400 +
        (0xDC00 + (n - 0x10000) % 0x400 - 0xDC00) = n := by
  simp only [isHighUnit, isLowUnit, Bool.and_eq_true, decide_eq_true_eq]
  omega

theorem unitEscape_one {c : Char} (hc : c.toNat < 0x10000) :
    unitEscape c = '\\' :: 'u' :: Text.ofHex 4 c.toNat := by
  unfold unitEscape
  dsimp only
  rw [if_pos hc]
  simp

theorem unitEscape_two {c : Char} (hc : ¬ c.toNat < 0x10000) :
    unitEscape c = '\\' :: 'u' :: (Text.ofHex 4 (0xD800 + (c.toNat - 0x10000) / 0x400) ++
      '\\' :: 'u' :: Text.ofHex 4 (0xDC00 + (c.toNat - 0x10000) % 0x400)) := by
  have hjoin : ∀ s t : Text, "\\u" ++ s ++ "\\u" ++ t = '\\' :: 'u' :: (s ++ '\\' :: 'u' :: t) := by
    simp
  rw [← hjoin]
  unfold unitEscape
  exact if_neg hc

/-- What follows the backslash of a unit escape is read as the character. -/
theorem exists_unitEscape (c : Char) (rest : Text) :
    ∃ units, unitEscape c ++ rest = '\\' :: 'u' :: units ∧ readUnits? units = some (c, rest) := by
  by_cases hc : c.toNat < 0x10000
  · refine ⟨_, by rw [unitEscape_one hc, List.cons_append, List.cons_append], ?_⟩
    rw [readUnits?_one (hexUnit?_ofHex hc rest) (not_surrogate c).1, unitChar_toNat]
  · have hbound := toNat_lt c
    obtain ⟨hhigh, hlow, hsum⟩ := surrogates (Nat.le_of_not_lt hc) hbound
    refine ⟨_, by rw [unitEscape_two hc, List.cons_append, List.cons_append,
      List.append_assoc, List.cons_append, List.cons_append], ?_⟩
    rw [readUnits?_two (hexUnit?_ofHex (by omega) _) (hexUnit?_ofHex (by omega) rest) hhigh hlow,
      hsum, Char.ofNat_toNat]

theorem readText?_escape {fuel : Nat} {c : Char} {t rest : Text}
    (h : readEscape? t = some (c, rest)) :
    readText? (fuel + 1) ('\\' :: t) = (readText? fuel rest).map fun x => (c :: x.1, x.2) := by
  rw [readText?, if_neg (by decide), if_pos (by decide), h]
  simp only [Option.bind_eq_bind, Option.bind_some]
  cases readText? fuel rest <;> rfl

theorem readText?_plain {fuel : Nat} {c : Char} {rest : Text} (hquote : c ≠ '"') (hback : c ≠ '\\')
    (hcontrol : 32 ≤ c.toNat) :
    readText? (fuel + 1) (c :: rest) = (readText? fuel rest).map fun x => (c :: x.1, x.2) := by
  rw [readText?, if_neg (by simpa using hquote), if_neg (by simpa using hback),
    if_neg (by omega)]
  cases readText? fuel rest <;> rfl

/-- What stands for a character is read as the character. -/
theorem readText?_escapeChar (fuel : Nat) (c : Char) (rest : Text) :
    readText? (fuel + 1) (escapeChar c ++ rest) =
      (readText? fuel rest).map fun x => (c :: x.1, x.2) := by
  unfold escapeChar
  by_cases hquote : c = '"'
  · subst hquote; exact readText?_escape rfl
  by_cases hback : c = '\\'
  · subst hback; exact readText?_escape rfl
  by_cases hn : c = '\n'
  · subst hn; exact readText?_escape rfl
  by_cases hr : c = '\r'
  · subst hr; exact readText?_escape rfl
  by_cases ht : c = '\t'
  · subst ht; exact readText?_escape rfl
  by_cases hf : c = '\x0c'
  · subst hf; exact readText?_escape rfl
  by_cases hb : c = '\x08'
  · subst hb; exact readText?_escape rfl
  simp only [beq_iff_eq, hquote, hback, hn, hr, ht, hf, hb, if_false]
  split
  · next h =>
    simp only [Bool.and_eq_true, decide_eq_true_eq] at h
    exact readText?_plain hquote hback (Char.le_def.mp h.1)
  · obtain ⟨units, heq, hread⟩ := exists_unitEscape c rest
    rw [heq]
    exact readText?_escape hread

/-- A written text is read back. -/
theorem readText?_escaped (t rest : Text) {fuel : Nat} (hfuel : t.length < fuel) :
    readText? fuel (t.flatMap escapeChar ++ '"' :: rest) = some (t, rest) := by
  induction t generalizing fuel with
  | nil =>
    obtain ⟨k, rfl⟩ : ∃ k, fuel = k + 1 := ⟨fuel - 1, by omega⟩
    simp [readText?]
  | cons c t ih =>
    rw [List.length_cons] at hfuel
    obtain ⟨k, rfl⟩ : ∃ k, fuel = k + 1 := ⟨fuel - 1, by omega⟩
    rw [List.flatMap_cons, List.append_assoc, readText?_escapeChar, ih (by omega)]
    rfl

theorem escapeChar_ne_nil (c : Char) : escapeChar c ≠ [] := by
  unfold escapeChar
  repeat' split
  case isFalse.isFalse.isFalse.isFalse.isFalse.isFalse.isFalse.isFalse =>
    obtain ⟨units, heq, -⟩ := exists_unitEscape c []
    rw [← List.append_nil (unitEscape c), heq]
    exact List.cons_ne_nil _ _
  all_goals exact List.cons_ne_nil _ _

/-- A digit is written as it is. -/
theorem escapeChar_digit {c : Char} (hc : Text.isAsciiDigit c = true) :
    escapeChar c = [c] := by
  have hne : ∀ d, Text.isAsciiDigit d = false → c ≠ d := by
    rintro d hd rfl
    exact Bool.noConfusion (hd.symm.trans hc)
  simp only [Text.isAsciiDigit, Bool.and_eq_true, decide_eq_true_eq] at hc
  have hlow : ' ' ≤ c := Char.le_trans (by decide) hc.1
  have hhigh : c ≤ '~' := Char.le_trans hc.2 (by decide)
  simp [escapeChar, hne '"' rfl, hne '\\' rfl, hne '\n' rfl, hne '\r' rfl, hne '\t' rfl,
    hne '\x0c' rfl, hne '\x08' rfl, hlow, hhigh]

theorem length_le_escaped (t : Text) : t.length ≤ (t.flatMap escapeChar).length := by
  induction t with
  | nil => exact Nat.le_refl 0
  | cons c t ih =>
    have hc := List.length_pos_iff.mpr (escapeChar_ne_nil c)
    rw [List.flatMap_cons, List.length_append, List.length_cons]
    omega

/-- The fuel that the readers give is enough for a written text. -/
theorem readText?_written (t rest : Text) :
    let quoted := t.flatMap escapeChar ++ '"' :: rest
    readText? (quoted.length + 1) quoted = some (t, rest) := by
  have hlength := length_le_escaped t
  refine readText?_escaped t rest ?_
  rw [List.length_append]
  omega

/-! ## The closing quote -/

/-- What can stand between two quotes: every quote in it is hidden by a backslash. -/
inductive InQuotes : Text → Prop where
  | nil : InQuotes []
  | plain {c : Char} {t : Text} : c ≠ '"' → c ≠ '\\' → InQuotes t → InQuotes (c :: t)
  | escape {c : Char} {t : Text} : InQuotes t → InQuotes ('\\' :: c :: t)

namespace InQuotes

theorem append {s t : Text} (hs : InQuotes s) (ht : InQuotes t) : InQuotes (s ++ t) := by
  induction hs with
  | nil => exact ht
  | plain hquote hback _ ih => exact plain hquote hback ih
  | escape _ ih => exact escape ih

theorem of_plain {t : Text} (h : ∀ c ∈ t, c ≠ '"' ∧ c ≠ '\\') : InQuotes t := by
  induction t with
  | nil => exact nil
  | cons c t ih =>
    obtain ⟨hquote, hback⟩ := h c (by simp)
    exact plain hquote hback (ih fun d hd => h d (List.mem_cons_of_mem c hd))

theorem of_cons {c : Char} {t : Text} (hback : c ≠ '\\') (h : InQuotes (c :: t)) :
    c ≠ '"' ∧ InQuotes t := by
  generalize hs : c :: t = s at h
  cases h with
  | nil => exact absurd hs (List.cons_ne_nil c t)
  | plain hquote _ h =>
    obtain ⟨rfl, rfl⟩ := List.cons.inj hs
    exact ⟨hquote, h⟩
  | escape _ => exact absurd (List.cons.inj hs).1 hback

theorem of_escape {c : Char} {t : Text} (h : InQuotes ('\\' :: c :: t)) : InQuotes t := by
  cases h with
  | plain _ hback _ => exact absurd rfl hback
  | escape h => exact h

/-- A quote behind what can stand between quotes is not hidden. -/
theorem not_quote {s r : Text} (hs : InQuotes s) : ¬ InQuotes (s ++ '"' :: r) := by
  induction hs with
  | nil => exact fun h => (of_cons (by decide) h).1 rfl
  | plain _ hback _ ih => exact fun h => ih (of_cons hback h).2
  | escape _ ih => exact fun h => ih (of_escape h)

end InQuotes

theorem hexDigit?_plain {c : Char} {n : Nat} (h : hexDigit? c = some n) : c ≠ '"' ∧ c ≠ '\\' := by
  refine ⟨?_, ?_⟩ <;> rintro rfl <;> exact nomatch h

theorem hexUnit?_inQuotes {t r : Text} {n : Nat} (h : hexUnit? t = some (n, r)) :
    ∃ body, InQuotes body ∧ t = body ++ r := by
  unfold hexUnit? at h
  split at h
  · next a b c d rest =>
    simp only [Option.bind_eq_bind, Option.bind_eq_some_iff, Option.some.injEq, Prod.mk.injEq] at h
    obtain ⟨_, ha, _, hb, _, hc, _, hd, -, rfl⟩ := h
    refine ⟨[a, b, c, d], InQuotes.of_plain ?_, rfl⟩
    simp [hexDigit?_plain ha, hexDigit?_plain hb, hexDigit?_plain hc, hexDigit?_plain hd]
  · exact absurd h (by simp)

theorem readUnits?_inQuotes {t r : Text} {c : Char} (h : readUnits? t = some (c, r)) :
    ∃ body, InQuotes body ∧ t = body ++ r := by
  simp only [readUnits?, Option.bind_eq_bind, Option.bind_eq_some_iff] at h
  obtain ⟨⟨high, rest⟩, hfirst, h⟩ := h
  obtain ⟨first, hone, rfl⟩ := hexUnit?_inQuotes hfirst
  dsimp only at h
  split at h
  · next more =>
    obtain ⟨⟨low, after⟩, hsecond, h⟩ := Option.bind_eq_some_iff.mp h
    obtain ⟨second, htwo, rfl⟩ := hexUnit?_inQuotes hsecond
    dsimp only at h
    split at h
    · obtain ⟨-, rfl⟩ := Prod.mk.inj (Option.some.inj h)
      exact ⟨first ++ '\\' :: 'u' :: second, hone.append htwo.escape, by simp⟩
    · obtain ⟨-, rfl⟩ := Prod.mk.inj (Option.some.inj h)
      exact ⟨first, hone, rfl⟩
  · obtain ⟨-, rfl⟩ := Prod.mk.inj (Option.some.inj h)
    exact ⟨first, hone, rfl⟩

theorem readEscape?_inQuotes {t r : Text} {c : Char} (h : readEscape? t = some (c, r)) :
    ∃ body, InQuotes ('\\' :: body) ∧ t = body ++ r := by
  unfold readEscape? at h
  split at h
  case h_9 rest =>
    obtain ⟨body, hbody, rfl⟩ := readUnits?_inQuotes h
    exact ⟨'u' :: body, hbody.escape, rfl⟩
  case h_10 => exact absurd h (by simp)
  all_goals
    obtain ⟨-, rfl⟩ := Prod.mk.inj (Option.some.inj h)
    exact ⟨[_], InQuotes.nil.escape, rfl⟩

/-- The reader stops behind the first quote that is not hidden. -/
theorem readText?_inQuotes {fuel : Nat} {t s r : Text} (h : readText? fuel t = some (s, r)) :
    ∃ body, InQuotes body ∧ t = body ++ '"' :: r := by
  induction fuel generalizing t s r with
  | zero => exact absurd h (by simp [readText?])
  | succ fuel ih =>
    rcases t with _ | ⟨c, t⟩
    · exact absurd h (by simp [readText?])
    rw [readText?] at h
    split at h
    · next hquote =>
      obtain ⟨-, rfl⟩ := Prod.mk.inj (Option.some.inj h)
      exact ⟨[], .nil, by simpa using hquote⟩
    · next hquote =>
      split at h
      · next hback =>
        obtain ⟨⟨d, rest⟩, hescape, h⟩ := Option.bind_eq_some_iff.mp h
        obtain ⟨⟨s', rest'⟩, hrest, h⟩ := Option.bind_eq_some_iff.mp h
        obtain ⟨-, rfl⟩ := Prod.mk.inj (Option.some.inj h)
        obtain ⟨first, hfirst, rfl⟩ := readEscape?_inQuotes hescape
        obtain ⟨body, hbody, rfl⟩ := ih hrest
        exact ⟨'\\' :: first ++ body, hfirst.append hbody, by simpa using hback⟩
      · next hback =>
        split at h
        · exact absurd h (by simp)
        · obtain ⟨⟨s', rest'⟩, hrest, h⟩ := Option.bind_eq_some_iff.mp h
          obtain ⟨-, rfl⟩ := Prod.mk.inj (Option.some.inj h)
          obtain ⟨body, hbody, rfl⟩ := ih hrest
          exact ⟨c :: body, .plain (by simpa using hquote) (by simpa using hback) hbody, rfl⟩

theorem digitChar_plain : ∀ d < 16, Nat.digitChar d ≠ '"' ∧ Nat.digitChar d ≠ '\\' := by decide

theorem inQuotes_ofHex {n : Nat} (hn : n < 0x10000) : InQuotes (Text.ofHex 4 n) := by
  rw [ofHex_four hn]
  refine InQuotes.of_plain fun c hc => ?_
  simp only [List.mem_cons, List.not_mem_nil, or_false] at hc
  rcases hc with rfl | rfl | rfl | rfl <;> exact digitChar_plain _ (by omega)

theorem inQuotes_unitEscape (c : Char) : InQuotes (unitEscape c) := by
  by_cases hc : c.toNat < 0x10000
  · rw [unitEscape_one hc]
    exact (inQuotes_ofHex hc).escape
  · have hbound := toNat_lt c
    rw [unitEscape_two hc]
    exact ((inQuotes_ofHex (by omega)).append (inQuotes_ofHex (by omega)).escape).escape

theorem inQuotes_escapeChar (c : Char) : InQuotes (escapeChar c) := by
  unfold escapeChar
  by_cases hquote : c = '"'
  · subst hquote; exact InQuotes.nil.escape
  by_cases hback : c = '\\'
  · subst hback; exact InQuotes.nil.escape
  simp only [beq_iff_eq, hquote, hback, if_false]
  repeat' split
  case isFalse.isFalse.isFalse.isFalse.isFalse.isFalse => exact inQuotes_unitEscape c
  case isFalse.isFalse.isFalse.isFalse.isFalse.isTrue => exact InQuotes.nil.plain hquote hback
  all_goals exact InQuotes.nil.escape

theorem inQuotes_escaped (t : Text) : InQuotes (t.flatMap escapeChar) := by
  induction t with
  | nil => exact .nil
  | cons c t ih => exact (inQuotes_escapeChar c).append ih

/-- A text that breaks off before its closing quote is not read. -/
theorem readText?_truncated {t u : Text} (h : u <+: t.flatMap escapeChar) (fuel : Nat) :
    readText? fuel u = none := by
  rw [Option.eq_none_iff_forall_ne_some]
  rintro ⟨s, r⟩ hread
  obtain ⟨body, hbody, rfl⟩ := readText?_inQuotes hread
  obtain ⟨more, hmore⟩ := h
  have hall := inQuotes_escaped t
  rw [← hmore, List.append_assoc, List.cons_append] at hall
  exact hbody.not_quote hall

end ChangeReview.Value

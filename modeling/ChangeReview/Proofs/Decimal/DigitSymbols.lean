import ChangeReview.Decimal.Literal

/-!
# Whole numerals of digit symbols

A text of digit symbols, of any script, is a numeral just where all of them are decimal digits and
there are no more than a numeral may have; it stands for a number that is not negative. A symbol such
as `²` is a digit and no decimal one, so that not every text of digits can be read.
-/
namespace ChangeReview

namespace Text

variable {c : Char}

theorem isAsciiDigit_range (h : isAsciiDigit c = true) : 48 ≤ c.toNat ∧ c.toNat ≤ 57 := by
  simp only [isAsciiDigit, Bool.and_eq_true, decide_eq_true_eq, Char.le_def,
    UInt32.le_iff_toNat_le] at h
  exact h

theorem isBlank_digit (h : isAsciiDigit c = true) : isBlank c = false := by
  have hrange := isAsciiDigit_range h
  simp only [isBlank, Bool.or_eq_false_iff, Bool.and_eq_false_iff, decide_eq_false_iff_not,
    beq_eq_false_iff_ne]
  omega

/-- No blank has a code point that is far enough from all of these. -/
theorem isBlank_of_apart (h : (0xA0 < c.toNat ∧ c.toNat < 0x1680) ∨
    (0x1680 < c.toNat ∧ c.toNat < 0x2000) ∨ (0x205F < c.toNat ∧ c.toNat < 0x3000) ∨
      0x3000 < c.toNat) : isBlank c = false := by
  simp only [isBlank, Bool.or_eq_false_iff, Bool.and_eq_false_iff, decide_eq_false_iff_not,
    beq_eq_false_iff_ne]
  omega

/-- Beyond ASCII, a decimal digit is at most nine places behind the zero of its script. -/
theorem exists_zero (hwide : ¬ c.toNat < 128) (h : isDecimal c = true) :
    ∃ z ∈ Tables.decimalZeros, z ≤ c.toNat ∧ c.toNat ≤ z + 9 ∧
      digitValue? c = some (c.toNat - z) := by
  unfold isDecimal at h
  unfold digitValue? at h ⊢
  rw [if_neg hwide] at h ⊢
  rw [Option.isSome_map] at h
  obtain ⟨z, hz⟩ := Option.isSome_iff_exists.mp h
  have hrun := List.find?_some hz
  simp only [Bool.and_eq_true, decide_eq_true_eq] at hrun
  exact ⟨z, List.mem_of_find?_eq_some hz, hrun.1, hrun.2, by rw [hz]; rfl⟩

theorem isAsciiDigit_of_isDecimal (hnarrow : c.toNat < 128) (h : isDecimal c = true) :
    isAsciiDigit c = true := by
  unfold isDecimal digitValue? at h
  rw [if_pos hnarrow] at h
  split at h
  · next hdigit => exact hdigit
  · exact absurd h (by simp)

/-- No decimal digit of any script is a blank. -/
theorem isBlank_decimal (h : isDecimal c = true) : isBlank c = false := by
  by_cases hwide : c.toNat < 128
  · exact isBlank_digit (isAsciiDigit_of_isDecimal hwide h)
  · obtain ⟨z, hz, hlow, hhigh, -⟩ := exists_zero hwide h
    have htable : ∀ z ∈ Tables.decimalZeros, z = 48 ∨ (0xA0 < z ∧ z + 9 < 0x1680) ∨
        (0x1680 < z ∧ z + 9 < 0x2000) ∨ 0x3000 < z := by decide
    have hplace := htable z hz
    exact isBlank_of_apart (by omega)

/-- A digit that is no decimal one stands beyond ASCII, and is no blank. -/
theorem symbol_of_not_decimal (h : isDigitSymbol c = true) (hdecimal : isDecimal c = false) :
    ¬ c.toNat < 128 ∧ isBlank c = false := by
  simp only [isDigitSymbol, hdecimal, Bool.false_or, Bool.and_eq_true, decide_eq_true_eq, inRanges,
    List.any_eq_true] at h
  obtain ⟨hwide, r, hr, hlow, hhigh⟩ := h
  have htable : ∀ r ∈ Tables.digitSymbols, (0xA0 < r.1 ∧ r.2 < 0x1680) ∨
      (0x1680 < r.1 ∧ r.2 < 0x2000) ∨ (0x205F < r.1 ∧ r.2 < 0x3000) ∨ 0x3000 < r.1 := by decide
  have hplace := htable r hr
  exact ⟨by omega, isBlank_of_apart (by omega)⟩

end Text

namespace Decimal

/-! ## Plain numerals -/

theorem dropUnderscores?_plain {t : Text} (h : ∀ c ∈ t, c ≠ '_') {prev : Char}
    (hprev : prev ≠ '_') : dropUnderscores? prev t = some t := by
  induction t generalizing prev with
  | nil => simp [dropUnderscores?, hprev]
  | cons c t ih =>
    have hc := h c List.mem_cons_self
    simp [dropUnderscores?, hc, hprev, ih (fun d hd => h d (List.mem_cons_of_mem c hd)) hc]

/-- A numeral has nothing around it if none of its characters may stand there. -/
theorem core_plain {t : Text} (h : ∀ c ∈ toAscii t, isMargin c = false) : core t = toAscii t := by
  have hkeep : ∀ u : Text, (∀ c ∈ u, isMargin c = false) → u.dropWhile isMargin = u := by
    intro u hu
    cases u with
    | nil => rfl
    | cons c u => exact List.dropWhile_cons_of_neg (by simp [hu c List.mem_cons_self])
  have hback := hkeep (toAscii t).reverse fun c hc => h c (List.mem_reverse.mp hc)
  rw [core, hkeep _ h, hback, List.reverse_reverse]

theorem takeSign_plain {c : Char} {t : Text} (hminus : c ≠ '-') (hplus : c ≠ '+') :
    takeSign (c :: t) = (false, c :: t) := by
  unfold takeSign
  split
  · next heq => exact absurd (List.cons.inj heq).1 hminus
  · next heq => exact absurd (List.cons.inj heq).1 hplus
  · rfl

/-! ## Digits of any script -/

/-- What a character becomes in ASCII. -/
def asciiChar (c : Char) : Char :=
  if c.toNat < 128 then c
  else if Text.isBlank c then ' '
  else match Text.digitValue? c with
    | some d => Char.ofNat (48 + d)
    | none => '?'

theorem toAscii_eq_map (t : Text) : toAscii t = t.map asciiChar := rfl

theorem asciiChar_decimal {c : Char} (h : Text.isDecimal c = true) :
    Text.isAsciiDigit (asciiChar c) = true := by
  unfold asciiChar
  split
  · next hnarrow => exact Text.isAsciiDigit_of_isDecimal hnarrow h
  · next hwide =>
    obtain ⟨z, -, hlow, hhigh, hvalue⟩ := Text.exists_zero hwide h
    have hdigits : ∀ d ≤ 9, Text.isAsciiDigit (Char.ofNat (48 + d)) = true := by decide
    rw [if_neg (by simp [Text.isBlank_decimal h]), hvalue]
    exact hdigits _ (by omega)

theorem asciiChar_symbol {c : Char} (h : Text.isDigitSymbol c = true)
    (hdecimal : Text.isDecimal c = false) : asciiChar c = '?' := by
  obtain ⟨hwide, hblank⟩ := Text.symbol_of_not_decimal h hdecimal
  have hvalue : Text.digitValue? c = none := by
    simpa [Text.isDecimal] using hdecimal
  simp [asciiChar, hwide, hblank, hvalue]

/-- The characters that digit symbols become in ASCII: no sign, no underscore and nothing that may
stand around a numeral. -/
theorem asciiChar_plain {c : Char} (h : Text.isDigitSymbol c = true) :
    asciiChar c ≠ '_' ∧ asciiChar c ≠ '-' ∧ asciiChar c ≠ '+' ∧ isMargin (asciiChar c) = false := by
  cases hdecimal : Text.isDecimal c with
  | false =>
    rw [asciiChar_symbol h hdecimal]
    decide
  | true =>
    have hdigit := asciiChar_decimal hdecimal
    generalize asciiChar c = d at hdigit
    have hne : ∀ e : Char, Text.isAsciiDigit e = false → d ≠ e := by
      rintro e he rfl
      exact Bool.noConfusion (hdigit.symm.trans he)
    refine ⟨hne _ (by decide), hne _ (by decide), hne _ (by decide), ?_⟩
    have hrange := Text.isAsciiDigit_range hdigit
    simp only [isMargin, Bool.or_eq_false_iff, Bool.and_eq_false_iff, decide_eq_false_iff_not,
      beq_eq_false_iff_ne]
    exact ⟨by omega, hne _ (by decide)⟩

section Symbols

variable {t : Text} (h : ∀ c ∈ t, Text.isDigitSymbol c = true)

include h

theorem all_isAsciiDigit_toAscii :
    (toAscii t).all Text.isAsciiDigit = t.all Text.isDecimal := by
  have hchar : ∀ c ∈ t, Text.isAsciiDigit (asciiChar c) = Text.isDecimal c := by
    intro c hc
    cases hdecimal : Text.isDecimal c with
    | true => exact asciiChar_decimal hdecimal
    | false =>
      rw [asciiChar_symbol (h c hc) hdecimal]
      decide
  rw [toAscii_eq_map, List.all_map, Bool.eq_iff_iff, List.all_eq_true, List.all_eq_true]
  exact forall₂_congr fun c hc => by rw [Function.comp_apply, hchar c hc]

/-- Digit symbols are a numeral if they are decimal digits and not too many. -/
theorem readInt?_symbols (hne : t ≠ []) :
    readInt? t = if t.all Text.isDecimal = true ∧ t.length ≤ maxDigits then
      some (digitsValue (toAscii t) : Int) else none := by
  have hplain : ∀ d ∈ toAscii t, d ≠ '_' ∧ d ≠ '-' ∧ d ≠ '+' ∧ isMargin d = false := by
    intro d hd
    obtain ⟨c, hc, rfl⟩ := List.mem_map.mp hd
    exact asciiChar_plain (h c hc)
  have hcore : core t = toAscii t := core_plain fun d hd => (hplain d hd).2.2.2
  have hall := all_isAsciiDigit_toAscii h
  have hlength : (toAscii t).length = t.length := List.length_map _
  have hsome : toAscii t ≠ [] := by simpa [toAscii_eq_map] using hne
  unfold readInt?
  rw [hcore]
  generalize toAscii t = u at hplain hall hlength hsome
  obtain ⟨d, r, rfl⟩ := List.exists_cons_of_ne_nil hsome
  obtain ⟨-, hminus, hplus, -⟩ := hplain d List.mem_cons_self
  rw [takeSign_plain hminus hplus]
  dsimp only
  rw [dropUnderscores?_plain (fun e he => (hplain e he).1) (by decide)]
  simp only [Option.bind_eq_bind, Option.bind_some, List.isEmpty_cons, Bool.false_or, hall, hlength]
  cases t.all Text.isDecimal with
  | false => simp
  | true =>
    by_cases hlong : maxDigits < t.length
    · simp [hlong, Nat.not_le.mpr hlong]
    · simp [Binary64.signed, hlong, Nat.not_lt.mp hlong]

end Symbols

end Decimal

end ChangeReview

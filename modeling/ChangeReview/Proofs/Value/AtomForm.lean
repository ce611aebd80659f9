import ChangeReview.Value.Reader
import ChangeReview.Value.Writer
import ChangeReview.Proofs.Text.Prefix
import Mathlib.Data.List.TakeDrop
import Mathlib.Data.List.TakeWhile

/-!
# Words and numbers

A value that opens no bracket and no quote is a stretch of letters, digits, signs and points. The
reader takes the front of such a stretch and never looks behind it, whole numbers are read as they
are written, and a stretch that breaks off is no fault but that it is no document.
-/
namespace ChangeReview.Value

/-- The characters of words and numbers. -/
def isAtomChar (c : Char) : Bool := Text.isAsciiAlnum c || c == '-' || c == '+' || c == '.'

/-- No word and no number goes on in the text. -/
def Apart (t : Text) : Prop := ∀ c ∈ t.head?, isAtomChar c = false

/-- All characters of the text are those of words and numbers. -/
def IsAtom (t : Text) : Prop := ∀ c ∈ t, isAtomChar c = true

instance (t : Text) : Decidable (IsAtom t) := List.decidableBAll _ t

@[simp] theorem apart_nil : Apart [] := by simp [Apart]

@[simp] theorem apart_cons {c : Char} {t : Text} : Apart (c :: t) ↔ isAtomChar c = false := by
  simp [Apart]

@[simp] theorem isAtom_append {s t : Text} : IsAtom (s ++ t) ↔ IsAtom s ∧ IsAtom t := by
  simp only [IsAtom, List.mem_append]
  constructor
  · intro h
    exact ⟨fun c hc => h c (.inl hc), fun c hc => h c (.inr hc)⟩
  · rintro ⟨hs, ht⟩ c (hc | hc)
    · exact hs c hc
    · exact ht c hc

theorem isAtomChar_digit {c : Char} (h : Text.isAsciiDigit c = true) : isAtomChar c = true := by
  simp [isAtomChar, Text.isAsciiAlnum, h]

/-! ## What the readers take -/

/-- The reader took a stretch of atom characters from the front of the text. -/
def Takes (t rest : Text) : Prop := ∃ front, IsAtom front ∧ t = front ++ rest

theorem Takes.refl (t : Text) : Takes t t := ⟨[], by simp [IsAtom], rfl⟩

theorem Takes.cons {c : Char} {t rest : Text} (hc : isAtomChar c = true) (h : Takes t rest) :
    Takes (c :: t) rest := by
  obtain ⟨front, hfront, rfl⟩ := h
  refine ⟨c :: front, ?_, rfl⟩
  simpa [IsAtom, hc] using hfront

theorem Takes.trans {s t u : Text} (h : Takes s t) (h' : Takes t u) : Takes s u := by
  obtain ⟨front, hfront, rfl⟩ := h
  obtain ⟨back, hback, rfl⟩ := h'
  exact ⟨front ++ back, isAtom_append.mpr ⟨hfront, hback⟩, by simp⟩

theorem takes_dropPrefix? {p t rest : Text} (hp : IsAtom p) (h : Text.dropPrefix? p t = some rest) :
    Takes t rest :=
  ⟨p, hp, Text.eq_append_of_dropPrefix? h⟩

theorem takes_takeDigits (t : Text) : Takes t (takeDigits t).2 := by
  refine ⟨(takeDigits t).1, ?_, ?_⟩
  · intro c hc
    rw [takeDigits, List.span_eq_takeWhile_dropWhile] at hc
    exact isAtomChar_digit (List.mem_takeWhile_imp hc)
  · rw [takeDigits, List.span_eq_takeWhile_dropWhile]
    exact (List.takeWhile_append_dropWhile).symm

theorem takes_readWhole? {t digits rest : Text} (h : readWhole? t = some (digits, rest)) :
    Takes t rest := by
  unfold readWhole? at h
  split at h
  · obtain ⟨-, rfl⟩ := Prod.mk.inj (Option.some.inj h)
    exact (Takes.refl _).cons (by decide)
  · have hdigits := takes_takeDigits t
    split at h
    · exact absurd h (by simp)
    · next hpair =>
      rw [Option.some.inj h] at hdigits
      exact hdigits

theorem takes_readFraction (t : Text) : Takes t (readFraction t).2 := by
  unfold readFraction
  split
  · next r =>
    have hdigits := takes_takeDigits r
    split
    · exact Takes.refl _
    · exact hdigits.cons (by decide)
  · exact Takes.refl _

theorem takes_takeSign (t : Text) : Takes t (Decimal.takeSign t).2 := by
  unfold Decimal.takeSign
  split
  · exact (Takes.refl _).cons (by decide)
  · exact (Takes.refl _).cons (by decide)
  · exact Takes.refl _

theorem takes_readPower (t : Text) : Takes t (readPower t).2 := by
  unfold readPower
  split
  · next c r =>
    split
    · next hc =>
      have hatom : isAtomChar c = true := by
        simp only [Bool.or_eq_true, beq_iff_eq] at hc
        rcases hc with rfl | rfl <;> decide
      have hdigits := (takes_takeSign r).trans (takes_takeDigits (Decimal.takeSign r).2)
      dsimp only
      split
      · exact Takes.refl _
      · next hpair =>
        rw [hpair] at hdigits
        exact hdigits.cons hatom
    · exact Takes.refl _
  · exact Takes.refl _

/-- Neither a list nor an object. -/
def IsScalar : Value → Prop
  | list _ | object _ => False
  | _ => True

/-- What the reader of a word or number may answer: a scalar and what follows its characters, or a
fault that says that there is none, or none of a size that is read. -/
inductive AtomOutcome (t : Text) : Except Fault (Value × Text) → Prop where
  | read {v : Value} {rest : Text} : IsScalar v → t ≠ rest → Takes t rest →
      AtomOutcome t (.ok (v, rest))
  | none : AtomOutcome t (.error .notJson)
  | long {digits : Nat} : Decimal.maxDigits < digits → digits ≤ t.length →
      AtomOutcome t (.error (.tooManyDigits Decimal.maxDigits digits))

theorem Takes.length_le {t rest : Text} (h : Takes t rest) : rest.length ≤ t.length := by
  obtain ⟨front, -, rfl⟩ := h
  simp

theorem readWhole?_length {t digits rest : Text} (h : readWhole? t = some (digits, rest)) :
    t = digits ++ rest ∧ digits ≠ [] := by
  unfold readWhole? at h
  split at h
  · obtain ⟨rfl, rfl⟩ := Prod.mk.inj (Option.some.inj h)
    exact ⟨rfl, List.cons_ne_nil _ _⟩
  · have hsplit : t = (takeDigits t).1 ++ (takeDigits t).2 := by
      rw [takeDigits, List.span_eq_takeWhile_dropWhile]
      exact (List.takeWhile_append_dropWhile).symm
    split at h
    · exact absurd h (by simp)
    · next hne =>
      rw [Option.some.inj h] at hsplit hne
      exact ⟨hsplit, fun hnil => hne rest (by rw [hnil])⟩

theorem readNumber_outcome (negative : Bool) (t : Text) :
    AtomOutcome t (readNumber negative t) := by
  unfold readNumber
  split
  · exact .none
  · next whole rest hwhole =>
    obtain ⟨hsplit, hne⟩ := readWhole?_length hwhole
    have htakes : Takes t (readPower (readFraction rest).2).2 :=
      ((takes_readWhole? hwhole).trans (takes_readFraction rest)).trans (takes_readPower _)
    have hlength := ((takes_readFraction rest).trans (takes_readPower _)).length_le
    have hmoved : t ≠ (readPower (readFraction rest).2).2 := by
      intro h
      have hcount := congrArg List.length hsplit
      rw [← h] at hlength
      have := List.length_pos_iff.mpr hne
      rw [List.length_append] at hcount
      omega
    dsimp only
    split
    · split
      · next hlong =>
        refine .long hlong ?_
        rw [hsplit, List.length_append]
        omega
      · exact .read trivial hmoved htakes
    · exact .read trivial hmoved htakes

theorem AtomOutcome.cons {c : Char} {t : Text} {outcome : Except Fault (Value × Text)}
    (hc : isAtomChar c = true) (h : AtomOutcome t outcome) : AtomOutcome (c :: t) outcome := by
  cases h with
  | read hv hne htakes =>
    refine .read hv ?_ (htakes.cons hc)
    intro h
    have := htakes.length_le
    rw [← h, List.length_cons] at this
    omega
  | none => exact .none
  | long hlong hlength => exact .long hlong (Nat.le_succ_of_le hlength)

theorem readAtom_outcome (t : Text) : AtomOutcome t (readAtom t) := by
  have hword : ∀ (p : Text) {rest : Text} {v : Value}, IsAtom p → p ≠ [] → IsScalar v →
      Text.dropPrefix? p t = some rest → AtomOutcome t (.ok (v, rest)) := by
    intro p rest v hp hne hv h
    refine .read hv ?_ (takes_dropPrefix? hp h)
    intro heq
    have hlength := congrArg List.length (Text.eq_append_of_dropPrefix? h)
    have := List.length_pos_iff.mpr hne
    rw [heq, List.length_append] at hlength
    omega
  unfold readAtom
  split
  · exact hword "null" (by decide) (by decide) trivial (by assumption)
  · exact hword "true" (by decide) (by decide) trivial (by assumption)
  · exact hword "false" (by decide) (by decide) trivial (by assumption)
  · split
    · exact hword "NaN" (by decide) (by decide) trivial (by assumption)
    · exact hword "Infinity" (by decide) (by decide) trivial (by assumption)
    · exact hword "-Infinity" (by decide) (by decide) trivial (by assumption)
    · split
      · exact (readNumber_outcome true _).cons (by decide)
      · exact readNumber_outcome false t

/-! ## Whole numbers -/

/-- The digits of a whole number: a zero alone, or some that start with another one. -/
structure IsNumeral (digits : Text) : Prop where
  nonempty : digits ≠ []
  allDigits : ∀ c ∈ digits, Text.isAsciiDigit c = true
  lead : digits.head? = some '0' → digits = ['0']

theorem isAsciiDigit_toDigits {n : Nat} : ∀ c ∈ Nat.toDigits 10 n, Text.isAsciiDigit c = true := by
  intro c hc
  have h := Nat.isDigit_of_mem_toDigits (by decide) (by decide) hc
  simpa [Char.isDigit, Text.isAsciiDigit, Char.le_def] using h

theorem head?_toDigits {n : Nat} (hn : 0 < n) : (Nat.toDigits 10 n).head? ≠ some '0' := by
  induction n using Nat.strongRecOn with
  | ind n ih =>
    by_cases hsmall : n < 10
    · have hdigit : ∀ d < 10, 0 < d → Nat.digitChar d ≠ '0' := by decide
      simpa [Nat.toDigits_of_lt_base hsmall] using hdigit n hsmall hn
    · have hfront := ih (n / 10) (by omega) (by omega)
      rw [Nat.toDigits_of_base_le (by decide) (by omega), List.head?_append]
      rcases hdigits : Nat.toDigits 10 (n / 10) with _ | ⟨c, r⟩
      · exact absurd hdigits Nat.toDigits_ne_nil
      · rw [hdigits] at hfront
        exact hfront

theorem isNumeral_toDigits (n : Nat) : IsNumeral (Nat.toDigits 10 n) where
  nonempty := Nat.toDigits_ne_nil
  allDigits := isAsciiDigit_toDigits
  lead h := by
    rcases Nat.eq_zero_or_pos n with rfl | hn
    · rfl
    · exact absurd h (head?_toDigits hn)

theorem Apart.not_digit {c : Char} {t : Text} (h : Apart (c :: t)) : Text.isAsciiDigit c = false := by
  rw [apart_cons] at h
  rw [← Bool.not_eq_true]
  intro hc
  exact Bool.noConfusion (h.symm.trans (isAtomChar_digit hc))

theorem takeDigits_append {digits rest : Text} (hdigits : ∀ c ∈ digits, Text.isAsciiDigit c = true)
    (hrest : Apart rest) : takeDigits (digits ++ rest) = (digits, rest) := by
  rw [takeDigits, List.span_eq_takeWhile_dropWhile, List.takeWhile_append_of_pos hdigits,
    List.dropWhile_append_of_pos hdigits]
  rcases rest with _ | ⟨c, r⟩
  · simp
  · simp [hrest.not_digit]

theorem readWhole?_append {digits rest : Text} (h : IsNumeral digits) (hrest : Apart rest) :
    readWhole? (digits ++ rest) = some (digits, rest) := by
  rcases digits with _ | ⟨c, digits⟩
  · exact absurd rfl h.nonempty
  by_cases hc : c = '0'
  · subst hc
    obtain rfl : digits = [] := (List.cons.inj (h.lead rfl)).2
    rfl
  · unfold readWhole?
    split
    · next heq => exact absurd (List.cons.inj heq).1 hc
    · rw [takeDigits_append h.allDigits hrest]

theorem readFraction_apart {rest : Text} (h : Apart rest) : readFraction rest = ([], rest) := by
  unfold readFraction
  split
  · exact absurd (apart_cons.mp h) (by decide)
  · rfl

theorem readPower_apart {rest : Text} (h : Apart rest) : readPower rest = (none, rest) := by
  rcases rest with _ | ⟨c, r⟩
  · rfl
  · rw [apart_cons] at h
    have hpower : (c == 'e' || c == 'E') = false := by
      rw [← Bool.not_eq_true, Bool.or_eq_true, beq_iff_eq, beq_iff_eq]
      rintro (rfl | rfl) <;> exact absurd h (by decide)
    simp [readPower, hpower]

/-- A numeral is read as its number. -/
theorem readNumber_append {digits rest : Text} (negative : Bool) (h : IsNumeral digits)
    (hlength : digits.length ≤ Decimal.maxDigits) (hrest : Apart rest) :
    readNumber negative (digits ++ rest) =
      .ok (int (Binary64.signed negative (Decimal.digitsValue digits)), rest) := by
  rw [readNumber, readWhole?_append h hrest]
  simp only [readFraction_apart hrest, readPower_apart hrest, List.isEmpty_nil, Option.isNone_none,
    Bool.and_self, if_true]
  rw [if_neg (Nat.not_lt.mpr hlength)]

/-- The digits of a whole number, which must not be too many to be read. -/
def HasDigits (n : Int) : Prop := (Text.ofNat n.natAbs).length ≤ Decimal.maxDigits

instance (n : Int) : Decidable (HasDigits n) := inferInstanceAs (Decidable (_ ≤ _))

/-- No word starts with a digit. -/
theorem readAtom_digit {c : Char} (hc : Text.isAsciiDigit c = true) (t : Text) :
    readAtom (c :: t) = readNumber false (c :: t) := by
  have hne : ∀ d, Text.isAsciiDigit d = false → d ≠ c := by
    rintro d hd rfl
    exact Bool.noConfusion (hd.symm.trans hc)
  have hnull := Text.dropPrefix?_cons_ne (hne 'n' rfl) "ull" t
  have htrue := Text.dropPrefix?_cons_ne (hne 't' rfl) "rue" t
  have hfalse := Text.dropPrefix?_cons_ne (hne 'f' rfl) "alse" t
  have hnan := Text.dropPrefix?_cons_ne (hne 'N' rfl) "aN" t
  have hinfinity := Text.dropPrefix?_cons_ne (hne 'I' rfl) "nfinity" t
  have hminus := Text.dropPrefix?_cons_ne (hne '-' rfl) "Infinity" t
  unfold readAtom
  rw [show Text.dropPrefix? "null" (c :: t) = none from hnull,
    show Text.dropPrefix? "true" (c :: t) = none from htrue,
    show Text.dropPrefix? "false" (c :: t) = none from hfalse,
    show Text.dropPrefix? "NaN" (c :: t) = none from hnan,
    show Text.dropPrefix? "Infinity" (c :: t) = none from hinfinity,
    show Text.dropPrefix? "-Infinity" (c :: t) = none from hminus]
  dsimp only
  split
  · next h => exact absurd (List.cons.inj h).1.symm (hne '-' rfl)
  · rfl

theorem readAtom_minus {c : Char} (hc : Text.isAsciiDigit c = true) (t : Text) :
    readAtom ('-' :: c :: t) = readNumber true (c :: t) := by
  have hne : 'I' ≠ c := by
    rintro rfl
    exact absurd hc (by decide)
  have hminus : Text.dropPrefix? "-Infinity" ('-' :: c :: t) = none := by
    show Text.dropPrefix? ('-' :: "Infinity") ('-' :: c :: t) = none
    rw [Text.dropPrefix?, if_pos rfl]
    exact Text.dropPrefix?_cons_ne hne "nfinity" t
  unfold readAtom
  rw [show Text.dropPrefix? "null" ('-' :: c :: t) = none from rfl,
    show Text.dropPrefix? "true" ('-' :: c :: t) = none from rfl,
    show Text.dropPrefix? "false" ('-' :: c :: t) = none from rfl,
    show Text.dropPrefix? "NaN" ('-' :: c :: t) = none from rfl,
    show Text.dropPrefix? "Infinity" ('-' :: c :: t) = none from rfl, hminus]
  rfl

theorem digitsValue_ofNat (n : Nat) : Decimal.digitsValue (Text.ofNat n) = n :=
  Nat.ofDigitChars_ten_toDigits

theorem exists_ofNat (n : Nat) :
    ∃ c r, Text.ofNat n = c :: r ∧ Text.isAsciiDigit c = true := by
  rcases h : Text.ofNat n with _ | ⟨c, r⟩
  · exact absurd h Nat.toDigits_ne_nil
  · exact ⟨c, r, rfl, isAsciiDigit_toDigits c (by rw [show Nat.toDigits 10 n = c :: r from h]; simp)⟩

/-- A whole number is read back. -/
theorem readAtom_ofInt {n : Int} (hn : HasDigits n) {rest : Text} (hrest : Apart rest) :
    readAtom (Text.ofInt n ++ rest) = .ok (int n, rest) := by
  rcases n with n | n
  · have hread := readNumber_append false (isNumeral_toDigits n) hn hrest
    obtain ⟨c, r, heq, hc⟩ := exists_ofNat n
    rw [show Nat.toDigits 10 n = c :: r from heq, List.cons_append, ← readAtom_digit hc,
      ← heq, digitsValue_ofNat] at hread
    rw [Text.ofInt, heq]
    exact hread
  · have hread := readNumber_append true (isNumeral_toDigits (n + 1)) hn hrest
    obtain ⟨c, r, heq, hc⟩ := exists_ofNat (n + 1)
    rw [show Nat.toDigits 10 (n + 1) = c :: r from heq, List.cons_append, ← readAtom_minus hc,
      ← heq, digitsValue_ofNat] at hread
    rw [Text.ofInt, heq]
    exact hread

theorem isAtom_ofNat (n : Nat) : IsAtom (Text.ofNat n) := fun c hc =>
  isAtomChar_digit (isAsciiDigit_toDigits c hc)

theorem isAtom_ofInt (n : Int) : IsAtom (Text.ofInt n) := by
  rcases n with n | n
  · exact isAtom_ofNat n
  · rw [Text.ofInt, ← List.singleton_append, isAtom_append]
    exact ⟨by decide, isAtom_ofNat (n + 1)⟩

/-! ## Stretches that break off -/

/-- The reader found no value, or one behind which neither gap nor bracket nor comma follows. -/
def BreaksOff (outcome : Except Fault (Value × Text)) : Prop :=
  outcome = .error .notJson ∨ ∃ v rest, outcome = .ok (v, rest) ∧ IsAtom rest

/-- A stretch of atom characters that is not too long breaks off. -/
theorem breaksOff_readAtom {t : Text} (h : IsAtom t) (hlength : t.length ≤ Decimal.maxDigits) :
    BreaksOff (readAtom t) := by
  have houtcome := readAtom_outcome t
  generalize readAtom t = outcome at houtcome
  cases houtcome with
  | read _ _ htakes =>
    obtain ⟨front, -, rfl⟩ := htakes
    exact .inr ⟨_, _, rfl, (isAtom_append.mp h).2⟩
  | none => exact .inl rfl
  | long hlong hle => omega

end ChangeReview.Value

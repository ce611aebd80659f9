import ChangeReview.Proofs.Decimal.Rounding

/-!
# Doubles by their values

Doubles are compared as what they stand for: numbers by their values between the two infinities, and
what is no number not at all. The greater of two positive numbers has the greater exponent, or the
greater mantissa under the same one.
-/
namespace ChangeReview.Binary64

open Float.Model Float.Model.UnpackedFloat

/-- What a double amounts to. -/
inductive Amount where
  | number (q : ℚ)
  | infinite (negative : Bool)
  | notANumber

def amount : Binary64 → Amount
  | .nan => .notANumber
  | .infinite negative => .infinite negative
  | .finite negative m e => .number ((if negative then -1 else 1) * (m * 2 ^ e))

/-- The mantissa and the exponent are those of a double: the mantissa has fifty-three digits unless
the exponent is the least. -/
structure Canonical (m : Nat) (e : Int) : Prop where
  lt : m < 2 ^ 53
  le : -1074 ≤ e
  full : 2 ^ 52 ≤ m ∨ e = -1074

def isNegative : Sign → Bool
  | .negative => true
  | .positive => false

/-- The two decodings of a double agree. -/
inductive Agree : UnpackedFloat → Binary64 → Prop
  | notANumber : Agree .notANumber .nan
  | infinity (s : Sign) : Agree (.infinity s) (.infinite (isNegative s))
  | zero (s : Sign) : Agree (.zero s) (.finite (isNegative s) 0 (-1074))
  | finite (s : Sign) {m : Nat} {e : Int} (pos : 0 < m) (canonical : Canonical m e) :
    Agree (.finite s m e pos) (.finite (isNegative s) m e)

theorem unpackMantissa_toNat (bits : UInt64) :
    (@unpackMantissa Format.binary64 bits.toBitVec).toNat = bits.toNat % 2 ^ 52 := by
  unfold unpackMantissa
  rw [BitVec.toNat_cast, BitVec.extractLsb_toNat]
  rfl

theorem isNegative_unpackSign (bits : UInt64) :
    isNegative (.ofBitVec (@unpackSign Format.binary64 bits.toBitVec)) =
      (bits.toNat / 2 ^ 63 == 1) := by
  have hbit : (@unpackSign Format.binary64 bits.toBitVec).toNat = bits.toNat / 2 ^ 63 % 2 := by
    unfold unpackSign
    rw [BitVec.toNat_cast, BitVec.extractLsb_toNat, Nat.shiftRight_eq_div_pow]
    rfl
  have hlt : bits.toNat < 2 ^ 64 := bits.toNat_lt
  generalize @unpackSign Format.binary64 bits.toBitVec = b at hbit
  unfold Sign.ofBitVec
  split
  · next hzero =>
    subst hzero
    have hsmall : bits.toNat / 2 ^ 63 ≠ 1 := by
      have hzero : (0#1).toNat = 0 := rfl
      omega
    simpa [isNegative] using hsmall
  · next hone =>
    have hpos : b.toNat ≠ 0 := fun h => hone (BitVec.eq_of_toNat_eq h)
    have hlarge : bits.toNat / 2 ^ 63 = 1 := by omega
    exact (beq_iff_eq.mpr hlarge).symm

theorem agree_unpack (bits : UInt64) :
    Agree (UnpackedFloat.unpack Format.binary64 bits.toBitVec) (ofBits bits.toNat) := by
  have hexponent := unpackExponent_toNat bits
  have hmantissa := unpackMantissa_toNat bits
  have hsign := isNegative_unpackSign bits
  have hfraction : bits.toNat % 2 ^ 52 < 2 ^ 52 := Nat.mod_lt _ (by decide)
  have hbias : (Format.binary64.exponentBias : Int) +
      (Format.binary64.mantissaBitsWithoutImplicit : Nat) = 1075 := rfl
  unfold UnpackedFloat.unpack ofBits
  dsimp only
  rw [unit_eq, show signBit = 2 ^ 63 from rfl, hbias, ← hsign, ← hexponent, ← hmantissa]
  rw [← hmantissa] at hfraction
  generalize Sign.ofBitVec (@unpackSign Format.binary64 bits.toBitVec) = s
  generalize @unpackExponent Format.binary64 bits.toBitVec = exponent
  have hsome : @unpackMantissa Format.binary64 bits.toBitVec = 0#_ ↔
      (@unpackMantissa Format.binary64 bits.toBitVec).toNat = 0 :=
    ⟨fun h => congrArg BitVec.toNat h, fun h => BitVec.eq_of_toNat_eq h⟩
  by_cases hones : exponent = -1#_
  · have hlast : exponent.toNat = 2047 := congrArg BitVec.toNat hones
    rw [if_pos hones, if_pos hlast]
    by_cases hnone : @unpackMantissa Format.binary64 bits.toBitVec = 0#_
    · rw [if_pos hnone, if_pos (hsome.mp hnone)]
      exact .infinity s
    · rw [if_neg hnone, if_neg (mt hsome.mpr hnone)]
      exact .notANumber
  · have hlast : exponent.toNat ≠ 2047 := fun h => hones (BitVec.eq_of_toNat_eq h)
    rw [if_neg hones, if_neg hlast]
    by_cases hzero : exponent = 0#_
    · have hleast : exponent.toNat = 0 := congrArg BitVec.toNat hzero
      rw [if_pos hzero, if_pos hleast, hleast]
      by_cases hnone : @unpackMantissa Format.binary64 bits.toBitVec = 0#_
      · rw [dif_pos hnone, hsome.mp hnone]
        exact .zero s
      · rw [dif_neg hnone]
        exact .finite s _ ⟨Nat.lt_trans hfraction (by decide), le_rfl, .inr rfl⟩
    · have hleast : exponent.toNat ≠ 0 := fun h => hzero (BitVec.eq_of_toNat_eq h)
      have hone : (1#1 ++ @unpackMantissa Format.binary64 bits.toBitVec).toNat =
          2 ^ 52 + (@unpackMantissa Format.binary64 bits.toBitVec).toNat := by
        rw [BitVec.toNat_append, ← Nat.shiftLeft_add_eq_or_of_lt hfraction, Nat.shiftLeft_eq]
        rfl
      rw [if_neg hzero, if_neg hleast, ← hone]
      exact .finite s _ ⟨by omega, by omega, .inl (by omega)⟩

/-- What a double stands for is what it computes with. -/
theorem agree_ofFloat (x : Float) : Agree x.toModel.unpack (ofFloat x) := agree_unpack x.toBits

/-! ## Canonical numbers -/

/-- Of two canonical numbers the one with the greater exponent is the greater. -/
theorem Canonical.lt_of_exponent_lt {m m' : Nat} {e e' : Int} (h : Canonical m e)
    (h' : Canonical m' e') (hlt : e < e') : (m : ℚ) * 2 ^ e < m' * 2 ^ e' := by
  have hlow : (m : ℚ) < 2 ^ 53 := by exact_mod_cast h.lt
  have hhigh : (2 : ℚ) ^ 52 ≤ m' := by
    have hfull := h'.full.resolve_right (by have := h.le; omega)
    exact_mod_cast hfull
  have hnext : (2 : ℚ) ^ (e + 1) ≤ 2 ^ e' := zpow_le_zpow_right₀ one_le_two hlt
  calc (m : ℚ) * 2 ^ e < 2 ^ 53 * 2 ^ e := by gcongr
    _ = 2 ^ 52 * 2 ^ (e + 1) := by rw [zpow_add_one₀ two_ne_zero]; ring
    _ ≤ m' * 2 ^ e' := by gcongr

theorem Canonical.compare_eq {m m' : Nat} {e e' : Int} (h : Canonical m e)
    (h' : Canonical m' e') :
    (compare e e').then (compare m m') = compare ((m : ℚ) * 2 ^ e) (m' * 2 ^ e') := by
  rcases lt_trichotomy e e' with hlt | rfl | hgt
  · rw [compare_lt_iff_lt.mpr hlt, compare_lt_iff_lt.mpr (h.lt_of_exponent_lt h' hlt)]
    rfl
  · have hunit : (0 : ℚ) < 2 ^ e := by positivity
    have hmono : StrictMono fun n : Nat => (n : ℚ) * 2 ^ e :=
      Nat.strictMono_cast.mul_const hunit
    rw [compare_eq_iff_eq.mpr rfl, Ordering.eq_then, ← cmp_eq_compare, ← cmp_eq_compare]
    exact (hmono.cmp_map_eq m m').symm
  · rw [compare_gt_iff_gt.mpr hgt, compare_gt_iff_gt.mpr (h'.lt_of_exponent_lt h hgt)]
    rfl

theorem swap_compare (q r : ℚ) : (compare q r).swap = compare (-q) (-r) := by
  have hanti : StrictAnti fun x : ℚ => -x := fun _ _ => neg_lt_neg
  rw [← cmp_eq_compare, ← cmp_eq_compare, cmp_swap]
  exact (hanti.cmp_map_eq q r).symm

/-! ## Order -/

/-- How one amount compares with another; what is no number does not. -/
def Amount.compare? : Amount → Amount → Option Ordering
  | .notANumber, _ => none
  | _, .notANumber => none
  | .number q, .number r => some (compare q r)
  | .infinite negative, .infinite negative' => some (compare negative' negative)
  | .infinite negative, .number _ => some (if negative then .lt else .gt)
  | .number _, .infinite negative => some (if negative then .gt else .lt)

@[simp] theorem amount_zero (negative : Bool) (e : Int) :
    amount (.finite negative 0 e) = .number 0 := by
  simp [amount]

theorem scaled_pos {m : Nat} (hm : 0 < m) (e : Int) : (0 : ℚ) < m * 2 ^ e := by
  have hcast : (0 : ℚ) < m := Nat.cast_pos.mpr hm
  positivity

theorem amount_finite_positive (m : Nat) (e : Int) :
    amount (.finite (isNegative .positive) m e) = .number (m * 2 ^ e) := by
  simp [amount, isNegative]

theorem amount_finite_negative (m : Nat) (e : Int) :
    amount (.finite (isNegative .negative) m e) = .number (-(m * 2 ^ e)) := by
  simp [amount, isNegative]

theorem compare_of_agree {u v : UnpackedFloat} {b c : Binary64} (hu : Agree u b) (hv : Agree v c) :
    u.compare v = b.amount.compare? c.amount := by
  cases hu with
  | notANumber => rfl
  | infinity s =>
    cases hv with
    | infinity s' => cases s <;> cases s' <;> rfl
    | _ => cases s <;> rfl
  | zero s =>
    rw [amount_zero]
    cases hv with
    | infinity s' => cases s' <;> rfl
    | notANumber => rfl
    | zero s' => rw [amount_zero]; rfl
    | @finite s' m e pos canonical =>
      have hpos := scaled_pos pos e
      cases s' with
      | positive =>
        rw [amount_finite_positive]
        exact congrArg some (compare_lt_iff_lt.mpr hpos).symm
      | negative =>
        rw [amount_finite_negative]
        exact congrArg some (compare_gt_iff_gt.mpr (neg_lt_zero.mpr hpos)).symm
  | @finite s m e pos canonical =>
    have hpos := scaled_pos pos e
    cases hv with
    | infinity s' => cases s <;> cases s' <;> rfl
    | notANumber => cases s <;> rfl
    | zero s' =>
      rw [amount_zero]
      cases s with
      | positive =>
        rw [amount_finite_positive]
        exact congrArg some (compare_gt_iff_gt.mpr hpos).symm
      | negative =>
        rw [amount_finite_negative]
        exact congrArg some (compare_lt_iff_lt.mpr (neg_lt_zero.mpr hpos)).symm
    | @finite s' m' e' pos' canonical' =>
      have hpos' := scaled_pos pos' e'
      have hvalues := canonical.compare_eq canonical'
      cases s <;> cases s' <;> simp only [amount_finite_positive, amount_finite_negative]
      case positive.positive => exact congrArg some hvalues
      case negative.negative =>
        exact congrArg some ((congrArg Ordering.swap hvalues).trans (swap_compare _ _))
      case positive.negative =>
        exact congrArg some (compare_gt_iff_gt.mpr (by linarith)).symm
      case negative.positive =>
        exact congrArg some (compare_lt_iff_lt.mpr (by linarith)).symm

theorem lt_iff (x y : Float) :
    x < y ↔ (ofFloat x).amount.compare? (ofFloat y).amount = some .lt := by
  rw [← compare_of_agree (agree_ofFloat x) (agree_ofFloat y)]
  exact decide_eq_true_iff.trans beq_iff_eq

theorem le_iff (x y : Float) :
    x ≤ y ↔ ∃ o, (ofFloat x).amount.compare? (ofFloat y).amount = some o ∧ o ≠ .gt := by
  simp only [← Ordering.isLE_iff_ne_gt]
  rw [← compare_of_agree (agree_ofFloat x) (agree_ofFloat y)]
  exact decide_eq_true_iff.trans (Option.any_eq_true _ _)

/-! ## Equality -/

theorem Amount.compare?_eq_iff {a b : Amount} :
    a.compare? b = some .eq ↔ a = b ∧ a ≠ .notANumber := by
  cases a with
  | notANumber => simp [compare?]
  | number q =>
    cases b with
    | infinite negative => cases negative <;> simp [compare?]
    | _ => simp [compare?]
  | infinite negative =>
    cases b with
    | infinite negative' => cases negative <;> cases negative' <;> simp [compare?]
    | _ => cases negative <;> simp [compare?]

theorem amount_eq_notANumber {b : Binary64} : b.amount = .notANumber ↔ b = .nan := by
  cases b <;> simp [amount]

/-- Doubles are equal when they stand for the same number or the same infinity. -/
theorem beq_iff (x y : Float) :
    (x == y) = true ↔ (ofFloat x).amount = (ofFloat y).amount ∧ ofFloat x ≠ .nan := by
  rw [ne_eq, ← amount_eq_notANumber, ← ne_eq, ← Amount.compare?_eq_iff,
    ← compare_of_agree (agree_ofFloat x) (agree_ofFloat y)]
  show (x.toModel.unpack.compare y.toModel.unpack == some .eq) = true ↔ _
  exact beq_iff_eq

/-- A double equals the whole number it stands for. -/
theorem compareInt?_eq_iff (x : Float) (n : Int) :
    compareInt? x n = some .eq ↔ (ofFloat x).amount = .number n := by
  unfold compareInt?
  cases ofFloat x with
  | nan => simp [amount]
  | infinite negative => cases negative <;> simp [amount]
  | finite negative m e =>
    obtain ⟨hden, hvalue⟩ := Decimal.ratio_spec m e
    have hden' : ((ratio m e).2 : ℚ) ≠ 0 := Nat.cast_ne_zero.mpr hden.ne'
    rw [div_eq_iff hden'] at hvalue
    show some (compare (signed negative (ratio m e).1) (n * (ratio m e).2)) = some .eq ↔ _
    rw [Option.some.injEq, compare_eq_iff_eq, amount, Amount.number.injEq]
    have hsigned : ((signed negative (ratio m e).1 : Int) : ℚ) =
        (if negative then -1 else 1) * ((m : ℚ) * 2 ^ e) * (ratio m e).2 := by
      rw [mul_assoc, ← hvalue]
      cases negative <;> simp [signed]
    rw [← @Int.cast_inj ℚ, hsigned, Int.cast_mul, Int.cast_natCast, mul_left_inj' hden']

/-! ## Bounds -/

/-- The amount is a number from `q` on, or positive infinity. -/
def Amount.IsFrom (q : ℚ) : Amount → Prop
  | .number r => q ≤ r
  | .infinite negative => negative = false
  | .notANumber => False

/-- The amount is a number up to `q`, or negative infinity. -/
def Amount.IsUpTo (q : ℚ) : Amount → Prop
  | .number r => r ≤ q
  | .infinite negative => negative = true
  | .notANumber => False

theorem Amount.isFrom_and_isUpTo {a : Amount} {low high : ℚ} :
    a.IsFrom low ∧ a.IsUpTo high ↔ ∃ q, a = .number q ∧ low ≤ q ∧ q ≤ high := by
  cases a with
  | number q => simp [IsFrom, IsUpTo]
  | infinite negative => cases negative <;> simp [IsFrom, IsUpTo]
  | notANumber => simp [IsFrom]

variable {x y : Float} {q : ℚ}

theorem le_iff_isFrom (hx : (ofFloat x).amount = .number q) :
    x ≤ y ↔ (ofFloat y).amount.IsFrom q := by
  rw [le_iff, hx]
  cases (ofFloat y).amount with
  | number r => simp [Amount.compare?, Amount.IsFrom, compare_le_iff_le]
  | infinite negative => cases negative <;> simp [Amount.compare?, Amount.IsFrom]
  | notANumber => simp [Amount.compare?, Amount.IsFrom]

theorem le_iff_isUpTo (hy : (ofFloat y).amount = .number q) :
    x ≤ y ↔ (ofFloat x).amount.IsUpTo q := by
  rw [le_iff, hy]
  cases (ofFloat x).amount with
  | number r => simp [Amount.compare?, Amount.IsUpTo, compare_le_iff_le]
  | infinite negative => cases negative <;> simp [Amount.compare?, Amount.IsUpTo]
  | notANumber => simp [Amount.compare?, Amount.IsUpTo]

/-- What is not below a number is from it on, or no number. -/
theorem not_lt_iff (hy : (ofFloat y).amount = .number q) :
    ¬ x < y ↔ (ofFloat x).amount.IsFrom q ∨ ofFloat x = .nan := by
  rw [lt_iff, hy, ← amount_eq_notANumber]
  cases (ofFloat x).amount with
  | number r => simp [Amount.compare?, Amount.IsFrom, compare_lt_iff_lt]
  | infinite negative => cases negative <;> simp [Amount.compare?, Amount.IsFrom]
  | notANumber => simp [Amount.compare?]

/-- Doubles other than the value that is no number can be compared. -/
theorem le_or_lt_of_ne_nan (hx : ofFloat x ≠ .nan) (hy : ofFloat y ≠ .nan) : x ≤ y ∨ y < x := by
  rw [ne_eq, ← amount_eq_notANumber] at hx hy
  rw [le_iff, lt_iff]
  cases hxa : (ofFloat x).amount with
  | notANumber => exact absurd hxa hx
  | number q =>
    cases hya : (ofFloat y).amount with
    | notANumber => exact absurd hya hy
    | number r => simpa [Amount.compare?, compare_le_iff_le, compare_lt_iff_lt] using le_or_gt q r
    | infinite negative => cases negative <;> simp [Amount.compare?]
  | infinite negative =>
    cases hya : (ofFloat y).amount with
    | notANumber => exact absurd hya hy
    | number r => cases negative <;> simp [Amount.compare?]
    | infinite negative' =>
      simpa [Amount.compare?, compare_le_iff_le, compare_lt_iff_lt] using
        le_or_gt negative' negative

end ChangeReview.Binary64

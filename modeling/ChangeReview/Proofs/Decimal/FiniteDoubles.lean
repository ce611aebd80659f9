import ChangeReview.Proofs.Decimal.QuotientRange

/-!
# Finite doubles

A double is finite as long as its exponent field is not all ones. A bound on the fields of the
operands gives one on the field of a sum, a product or a quotient: rounding shifts a mantissa to
fifty-three digits and may carry once.
-/
namespace ChangeReview.Binary64

open Float.Model Float.Model.UnpackedFloat

/-- The exponent field of a double. -/
def field (x : Float) : Nat := x.toBits.toNat / unit % 2048

/-- A double with an exponent field below the greatest one is a finite number. -/
theorem ofFloat_finite {x : Float} (h : field x < 2047) :
    ∃ negative m e, ofFloat x = .finite negative m e ∧ m < 2 ^ 53 ∧ e ≤ 971 := by
  have hbiased : x.toBits.toNat / unit % 2048 ≠ 2047 := Nat.ne_of_lt h
  have hfraction : x.toBits.toNat % unit < 2 ^ 52 := Nat.mod_lt _ (by decide)
  have hfield : x.toBits.toNat / unit % 2048 < 2047 := h
  unfold ofFloat ofBits
  dsimp only
  rw [if_neg hbiased]
  split
  · exact ⟨_, _, _, rfl, by omega, by omega⟩
  · refine ⟨_, _, _, rfl, ?_, by omega⟩
    rw [unit_eq]
    omega

theorem unpackExponent_toNat (bits : UInt64) :
    (@unpackExponent Format.binary64 bits.toBitVec).toNat = bits.toNat / 2 ^ 52 % 2048 := by
  unfold unpackExponent
  rw [BitVec.toNat_cast, BitVec.extractLsb_toNat, Nat.shiftRight_eq_div_pow]
  rfl

theorem field_eq (x : Float) :
    field x = (@unpackExponent Format.binary64 x.toModel.toBits.toBitVec).toNat :=
  (unpackExponent_toNat x.toBits).symm

/-- The unpacked number is zero, or finite with an exponent of so many steps above the least. -/
def AtMost (k : Nat) : UnpackedFloat → Prop
  | .zero _ => True
  | .finite _ _ e _ => e + 1075 ≤ k
  | _ => False

theorem field_zero (s : Sign) : field (.ofModel (.pack (.zero s))) = 0 := by
  rw [field_eq]
  exact congrArg BitVec.toNat unpackExponent_packComponents

/-- What is packed keeps the bound on its exponent. -/
theorem field_pack {k : Nat} (hk : k < 2047) {u : UnpackedFloat} (h : AtMost k u) :
    field (.ofModel (.pack u)) ≤ k := by
  cases u with
  | infinity s => exact h.elim
  | notANumber => exact h.elim
  | zero s =>
    rw [field_zero]
    exact Nat.zero_le k
  | finite s m e hm =>
    have hle : e + 1075 ≤ k := h
    have hbiased : (e + Format.binary64.exponentBias +
        Format.binary64.mantissaBitsWithoutImplicit).toNat ≤ k := by
      have hbias : Format.binary64.exponentBias = 1023 := rfl
      have hbits : Format.binary64.mantissaBitsWithoutImplicit = 52 := rfl
      rw [hbias, hbits]
      omega
    rw [field_eq]
    show (unpackExponent (UnpackedFloat.pack Format.binary64 (.finite s m e hm))).toNat ≤ k
    unfold UnpackedFloat.pack
    dsimp only
    generalize (e + Format.binary64.exponentBias +
      Format.binary64.mantissaBitsWithoutImplicit).toNat = biased at *
    rw [if_neg (by show ¬ 2 ^ 11 ≤ biased + 1; omega)]
    split
    · rw [unpackExponent_packComponents, BitVec.toNat_ofNat]
      exact Nat.le_trans (Nat.mod_le _ _) hbiased
    · rw [unpackExponent_packComponents]
      exact Nat.zero_le k

/-- What the bits of a finite double unpack to. -/
theorem unpack_cases {bits : BitVec Format.binary64.numBits} {k : Nat}
    (h : (unpackExponent bits).toNat ≤ k) (hk : k < 2047) :
    (∃ s, UnpackedFloat.unpack Format.binary64 bits = .zero s) ∨
      ∃ s m e hm, UnpackedFloat.unpack Format.binary64 bits = .finite s m e hm ∧ m < 2 ^ 53 ∧
        -1074 ≤ e ∧ e + 1075 ≤ max k 1 := by
  have hmantissa := (unpackMantissa bits).isLt
  have hbias : (Format.binary64.exponentBias : Int) +
      (Format.binary64.mantissaBitsWithoutImplicit : Nat) = 1075 := rfl
  unfold UnpackedFloat.unpack
  dsimp only
  rw [hbias]
  have hones : unpackExponent bits ≠ -1#_ := by
    intro hones
    rw [hones] at h
    exact absurd h (Nat.not_le.mpr hk)
  rw [if_neg hones]
  by_cases hzero : unpackExponent bits = 0#_
  · rw [if_pos hzero, hzero]
    by_cases hnone : unpackMantissa bits = 0#_
    · rw [dif_pos hnone]
      exact .inl ⟨_, rfl⟩
    · rw [dif_neg hnone]
      have hpos : 0 < (unpackMantissa bits).toNat :=
        Nat.pos_of_ne_zero fun h0 => hnone (BitVec.eq_of_toNat_eq h0)
      refine .inr ⟨_, _, _, hpos, rfl, ?_, by decide, ?_⟩
      · exact Nat.lt_trans hmantissa (by decide)
      · show (0 : Int) - 1075 + 1 + 1075 ≤ _
        omega
  · rw [if_neg hzero]
    have hpos : 0 < (unpackExponent bits).toNat :=
      Nat.pos_of_ne_zero fun h0 => hzero (BitVec.eq_of_toNat_eq h0)
    have hone : 0 < (1#1 ++ unpackMantissa bits).toNat := by
      rw [BitVec.toNat_append]
      exact Nat.lt_of_lt_of_le (by decide) Nat.left_le_or
    exact .inr ⟨_, _, _, hone, rfl, BitVec.isLt _, by omega, by omega⟩

theorem atMost_unpack {bits : BitVec Format.binary64.numBits} {k : Nat}
    (h : (unpackExponent bits).toNat ≤ k) (hk : k < 2047) :
    AtMost (max k 1) (UnpackedFloat.unpack Format.binary64 bits) := by
  rcases unpack_cases h hk with ⟨s, hs⟩ | ⟨s, m, e, hm, hs, -, -, hle⟩
  · rw [hs]
    trivial
  · rw [hs]
    exact hle

theorem toModel_cases {x : Float} {k : Nat} (h : field x ≤ k) (hk : k < 2047) :
    (∃ s, x.toModel.unpack = .zero s) ∨
      ∃ s m e hm, x.toModel.unpack = .finite s m e hm ∧ m < 2 ^ 53 ∧ -1074 ≤ e ∧
        e + 1075 ≤ max k 1 :=
  unpack_cases (field_eq x ▸ h) hk

/-- A double that is put together from bits below those of infinity is finite. -/
theorem field_assemble (negative : Bool) {magnitude : Nat} (h : magnitude < infinityBits) :
    field (assemble negative magnitude) ≤ max (magnitude / 2 ^ 52) 1 := by
  rw [infinityBits_eq] at h
  have hsign : signBit = 2 ^ 63 := rfl
  unfold assemble
  rw [hsign]
  have hbits : (UInt64.ofNat (magnitude + if negative then 2 ^ 63 else 0)).toNat =
      magnitude + if negative then 2 ^ 63 else 0 := by
    rw [UInt64.toNat_ofNat', Nat.mod_eq_of_lt]
    split <;> omega
  generalize UInt64.ofNat (magnitude + if negative then 2 ^ 63 else 0) = bits at *
  have hexp : (@unpackExponent Format.binary64 bits.toBitVec).toNat = magnitude / 2 ^ 52 := by
    rw [unpackExponent_toNat, hbits]
    split <;> omega
  exact field_pack (by omega) (atMost_unpack (Nat.le_of_eq hexp) (by omega))

/-! ## Rounding -/

theorem shiftRight_mantissa (em : ExtendedMantissa) (n : Nat) :
    (em >>> n).mantissa = em.mantissa / 2 ^ n := by
  induction n with
  | zero => exact (Nat.div_one _).symm
  | succ n ih =>
    show (em >>> n).mantissa / 2 = _
    rw [ih, Nat.div_div_eq_div_mul, ← Nat.pow_succ]

theorem roundedMantissa_le (em : ExtendedMantissa) : em.roundedMantissa ≤ em.mantissa + 1 := by
  obtain ⟨m, r, s⟩ := em
  unfold ExtendedMantissa.roundedMantissa
  cases r <;> cases s <;>
    simp only [ExtendedMantissa.accuracy, Accuracy.roundToNearestEven] <;> omega

theorem ofMantissaAndAccuracy_mantissa (m : Nat) (a : Accuracy) :
    (ExtendedMantissa.ofMantissaAndAccuracy m a).mantissa = m := by
  rcases a with _ | (_ | _ | _) <;> rfl

/-- A shift leaves fifty-three digits, and the exponent is raised no higher than that takes. -/
theorem shiftToTargetExponent_spec {m b : Nat} (hm : m < 2 ^ b) (hb : 53 ≤ b) (e : Int)
    (a : Accuracy) :
    (shiftToTargetExponent Format.binary64 m e a).1.mantissa < 2 ^ 53 ∧
      (shiftToTargetExponent Format.binary64 m e a).2 ≤ max (e + (b - 53 : Nat)) (-1074) := by
  have hlog : m.log2 < b := by
    by_cases h0 : m = 0
    · subst h0
      have hzero : Nat.log2 0 = 0 := by decide
      omega
    · exact (Nat.log2_lt h0).mpr hm
  have htarget : Format.binary64.targetExponent (totalExponent m e) =
      max (m.log2 + 1 + e - 53) (-1074) := rfl
  unfold shiftToTargetExponent shiftToExponent
  dsimp only
  rw [htarget, shiftRight_mantissa, ofMantissaAndAccuracy_mantissa]
  refine ⟨?_, by omega⟩
  rw [Nat.div_lt_iff_lt_mul (Nat.two_pow_pos _), ← Nat.pow_add]
  have hself : m < 2 ^ (m.log2 + 1) := Nat.lt_log2_self
  exact Nat.lt_of_lt_of_le hself (Nat.pow_le_pow_right (by decide) (by omega))

/-- Rounding carries at most once. -/
theorem roundWithAccuracy_atMost {m b k : Nat} {e : Int} (hm : m < 2 ^ b) (hb : 53 ≤ b)
    (hk : max (e + (b - 53 : Nat)) (-1074) + 1076 ≤ k) (s : Sign) (a : Accuracy) :
    AtMost k (roundWithAccuracy Format.binary64 s m e a) := by
  obtain ⟨hsmall, hexp⟩ := shiftToTargetExponent_spec hm hb e a
  have hround := roundedMantissa_le (shiftToTargetExponent Format.binary64 m e a).1
  generalize hfirst : shiftToTargetExponent Format.binary64 m e a = first at *
  have hcarry : first.1.roundedMantissa < 2 ^ 54 := by omega
  have hlast := (shiftToTargetExponent_spec hcarry (by decide) first.2 .exact).2
  generalize hsecond : shiftToTargetExponent Format.binary64 first.1.roundedMantissa first.2
    .exact = last at *
  unfold roundWithAccuracy
  rw [hfirst]
  dsimp only
  rw [hsecond]
  by_cases hzero : last.1.mantissa = 0
  · rw [dif_pos hzero]
    trivial
  · rw [dif_neg hzero]
    show last.2 + 1075 ≤ (k : Int)
    omega

theorem round_atMost {m b k : Nat} {e : Int} (hm : m < 2 ^ b) (hb : 53 ≤ b)
    (hk : max (e + (b - 53 : Nat)) (-1074) + 1076 ≤ k) (s : Sign) :
    AtMost k (UnpackedFloat.round Format.binary64 s m e) := by
  unfold UnpackedFloat.round decreaseExponent
  dsimp only
  generalize (e - Format.binary64.targetExponent (totalExponent m e)).toNat = n
  have hshift : m <<< n < 2 ^ (b + n) := by
    rw [Nat.shiftLeft_eq, Nat.pow_add]
    exact Nat.mul_lt_mul_of_pos_right hm (Nat.two_pow_pos n)
  exact roundWithAccuracy_atMost hshift (by omega) (by omega) s .exact

theorem normalize_atMost {b k : Nat} {n e : Int} (hn : n.natAbs < 2 ^ b) (hb : 53 ≤ b)
    (hk : max (e + (b - 53 : Nat)) (-1074) + 1076 ≤ k) :
    AtMost k (UnpackedFloat.normalize Format.binary64 n e .positive) := by
  unfold UnpackedFloat.normalize
  split
  · exact round_atMost (Nat.lt_of_le_of_lt (by omega) hn) hb hk .negative
  · trivial
  · exact round_atMost (Nat.lt_of_le_of_lt (by omega) hn) hb hk .positive

/-! ## Sums, products and quotients -/

theorem shiftLeft_lt {m n l : Nat} (hm : m < 2 ^ 53) (hn : n ≤ l) : m <<< n < 2 ^ (53 + l) := by
  rw [Nat.shiftLeft_eq]
  have hshift : m * 2 ^ n < 2 ^ 53 * 2 ^ n := Nat.mul_lt_mul_of_pos_right hm (Nat.two_pow_pos n)
  rw [← Nat.pow_add] at hshift
  exact Nat.lt_of_lt_of_le hshift (Nat.pow_le_pow_right (by decide) (by omega))

theorem natAbs_apply_add_lt (s t : Sign) {m n b : Nat} (hm : m < 2 ^ b) (hn : n < 2 ^ b) :
    (s.apply (m : Int) + t.apply (n : Int)).natAbs < 2 ^ (b + 1) := by
  rw [Nat.pow_succ]
  cases s <;> cases t <;> simp only [Sign.apply] <;> omega

section Operations

variable {x y : Float} {i j k : Nat} (hx : field x ≤ i) (hi : i < 2047)

include hx hi

theorem field_mul (hy : field y ≤ j) (hj : j < 2047) (hk : k < 2047) (htwo : 2 ≤ k)
    (hsum : max i 1 + max j 1 ≤ k + 1021) : field (x * y) ≤ k := by
  refine field_pack hk (u := UnpackedFloat.mul Format.binary64 x.toModel.unpack y.toModel.unpack) ?_
  rcases toModel_cases hx hi with ⟨s, hs⟩ | ⟨s, m, e, hm, hs, hlt, hmin, hmax⟩
  · rcases toModel_cases hy hj with ⟨s', hs'⟩ | ⟨s', m', e', hm', hs', -, -, -⟩
    · rw [hs, hs']
      trivial
    · rw [hs, hs']
      trivial
  · rcases toModel_cases hy hj with ⟨s', hs'⟩ | ⟨s', m', e', hm', hs', hlt', hmin', hmax'⟩
    · rw [hs, hs']
      trivial
    · rw [hs, hs']
      have hproduct : m * m' < 2 ^ 106 := by
        have hpow : 2 ^ 106 = 2 ^ 53 * 2 ^ 53 := by decide
        rw [hpow]
        exact Nat.mul_lt_mul_of_lt_of_le hlt (Nat.le_of_lt hlt') (by decide)
      exact roundWithAccuracy_atMost hproduct (by decide) (by omega) _ _

theorem field_div {s : Sign} {m : Nat} {e : Int} {hm : 0 < m}
    (hy : y.toModel.unpack = .finite s m e hm) (hk : k < 2047) (htwo : 2 ≤ k)
    (hquotient : (max i 1 : Nat) - e + 1 ≤ k) : field (x / y) ≤ k := by
  refine field_pack hk (u := UnpackedFloat.div Format.binary64 x.toModel.unpack y.toModel.unpack) ?_
  rcases toModel_cases hx hi with ⟨s', hs'⟩ | ⟨s', m', e', hm', hs', hlt, hmin, hmax⟩
  · rw [hs', hy]
    trivial
  · rw [hs', hy]
    unfold UnpackedFloat.div divCore
    dsimp only
    generalize htarget : min (e' - e) (Format.binary64.targetExponent
      (totalExponent m' e' - totalExponent m e)) = t
    have hle : t ≤ e' - e := htarget ▸ Int.min_le_left _ _
    generalize hshift : (e' - e - t).toNat = n
    have hmantissa : m' <<< n / m < 2 ^ (53 + n) := by
      rw [Nat.shiftLeft_eq, Nat.pow_add]
      exact Nat.lt_of_le_of_lt (Nat.div_le_self _ _)
        (Nat.mul_lt_mul_of_pos_right hlt (Nat.two_pow_pos n))
    exact roundWithAccuracy_atMost hmantissa (by omega) (by omega) _ _

theorem field_add (hy : field y ≤ j) (hj : j < 2047) (hk : k < 2047)
    (hsum : max (max i j) 1 + 2 ≤ k) : field (x + y) ≤ k := by
  refine field_pack hk (u := UnpackedFloat.add Format.binary64 x.toModel.unpack y.toModel.unpack) ?_
  rcases toModel_cases hx hi with ⟨s, hs⟩ | ⟨s, m, e, hm, hs, hlt, hmin, hmax⟩
  · rcases toModel_cases hy hj with ⟨s', hs'⟩ | ⟨s', m', e', hm', hs', hlt', hmin', hmax'⟩
    · rw [hs, hs']
      show AtMost k (if s == s' then .zero s else .zero .positive)
      split <;> trivial
    · rw [hs, hs']
      show e' + 1075 ≤ (k : Int)
      omega
  · rcases toModel_cases hy hj with ⟨s', hs'⟩ | ⟨s', m', e', hm', hs', hlt', hmin', hmax'⟩
    · rw [hs, hs']
      show e + 1075 ≤ (k : Int)
      omega
    · rw [hs, hs']
      unfold UnpackedFloat.add decreaseExponent
      dsimp only
      generalize hleast : min e e' = t
      have hfirst := shiftLeft_lt hlt (show (e - t).toNat ≤ (max e e' - t).toNat by omega)
      have hsecond := shiftLeft_lt hlt' (show (e' - t).toNat ≤ (max e e' - t).toNat by omega)
      exact normalize_atMost (natAbs_apply_add_lt s s' hfirst hsecond) (by omega) (by omega)

end Operations

/-- A whole number below a finite double has a nearest double itself. -/
theorem natAbs_lt_of_compareInt? {x : Float} (hx : field x < 2047) {n : Int} (hn : 0 ≤ n)
    (h : compareInt? x n = some .gt) : n.natAbs < wholeLimit := by
  obtain ⟨negative, m, e, hfloat, hm, he⟩ := ofFloat_finite hx
  have hlarge : m * 2 ^ e.toNat < wholeLimit := by
    have hpow : 2 ^ e.toNat ≤ 2 ^ 971 := Nat.pow_le_pow_right (by decide) (by omega)
    exact (Nat.mul_le_mul_left m hpow).trans_lt (mul_lt_wholeLimit hm)
  have hsigned : ∀ a : Nat, signed negative a ≤ a := by
    intro a
    unfold signed
    split <;> omega
  unfold compareInt? at h
  rw [hfloat] at h
  dsimp only at h
  unfold ratio at h
  by_cases hpos : 0 ≤ e
  · rw [if_pos hpos] at h
    dsimp only at h
    have hgt := Int.compare_eq_gt.mp (Option.some.inj h)
    have hle := hsigned (m * 2 ^ e.toNat)
    rw [Nat.pow_eq] at hgt
    omega
  · rw [if_neg hpos] at h
    dsimp only at h
    have hgt := Int.compare_eq_gt.mp (Option.some.inj h)
    have hle := hsigned m
    have hone : n * 1 ≤ n * (Nat.pow 2 (-e).toNat : Nat) := by
      refine Int.mul_le_mul_of_nonneg_left ?_ hn
      have htwo : 0 < Nat.pow 2 (-e).toNat := Nat.two_pow_pos _
      omega
    have hfirst := wholeLimit_bounds.1
    have hsmall : 2 ^ 53 ≤ 2 ^ 1023 := Nat.pow_le_pow_right (by decide) (by decide)
    omega

end ChangeReview.Binary64

namespace ChangeReview.Decimal

open Binary64

/-- The nearest double of a whole number is finite. -/
theorem field_nearest {n : Int} {x : Float} (h : nearest n = .ok x) : field x < 2047 := by
  unfold nearest ofInt? at h
  dsimp only at h
  by_cases hmagnitude : magnitudeOfRatio n.natAbs 1 < infinityBits
  · rw [if_pos hmagnitude] at h
    obtain rfl := Except.ok.inj h
    have hfield := field_assemble (n < 0) hmagnitude
    rw [infinityBits_eq] at hmagnitude
    omega
  · rw [if_neg hmagnitude] at h
    exact absurd h (by simp)

theorem nearest_of_lt {n : Int} {k : Nat} (hn : n.natAbs < 2 ^ k) (hk : k ≤ 1000) :
    ∃ x, nearest n = .ok x ∧ field x ≤ k + 1024 := by
  have hlimit : n.natAbs < wholeLimit := by
    have hpow : 2 ^ k ≤ 2 ^ 1023 := Nat.pow_le_pow_right (by decide) (by omega)
    have hfirst := wholeLimit_bounds.1
    omega
  have hmagnitude := (magnitudeOfRatio_lt_iff n.natAbs).mpr hlimit
  have hbelow : n.natAbs < 2 ^ k * 1 := by simpa using hn
  have hle : magnitudeOfRatio n.natAbs 1 ≤ (k + 1024) * 2 ^ 52 :=
    magnitudeOfRatio_le Nat.one_pos hbelow
  have hfield := field_assemble (n < 0) hmagnitude
  unfold nearest ofInt?
  dsimp only
  rw [if_pos hmagnitude]
  exact ⟨_, rfl, by omega⟩

end ChangeReview.Decimal

import ChangeReview.Decimal.Digits
import ChangeReview.Proofs.Decimal.FiniteDoubles
import Mathlib

/-!
# Rounding twice

A double that has been rounded to six places is not changed by rounding it again, although it is
rarely a decimal of six places itself: the millionths that it is nearest to are the ones it came
from, or are nearest to the same double. Quotients are compared in rational numbers; the bits of a
double are those it was put together from.
-/
namespace ChangeReview.Binary64

open Float.Model Float.Model.UnpackedFloat

/-! ## Bits of doubles -/

section Bits

variable {b : BitVec Format.binary64.numBits}

theorem toBitVec_ofBitVec (b : BitVec 1) : (Sign.ofBitVec b).toBitVec = b := by
  revert b
  decide

/-- The parts of the bits make up the bits. -/
theorem packComponents_parts {exponent : BitVec Format.binary64.exponentBits}
    {mantissa : BitVec Format.binary64.mantissaBitsWithoutImplicit}
    (hexponent : unpackExponent b = exponent) (hmantissa : unpackMantissa b = mantissa) :
    packComponents Format.binary64 (Sign.ofBitVec (unpackSign b)) exponent mantissa = b := by
  subst hexponent hmantissa
  simp only [packComponents, toBitVec_ofBitVec, unpackSign, unpackExponent, unpackMantissa,
    BitVec.extractLsb]
  ext i hi
  grind

theorem exponentBias_eq : Format.binary64.exponentBias = 1023 := rfl

theorem mantissaBits_eq : Format.binary64.mantissaBits = 53 := rfl

theorem log2_eq {n k : Nat} (hlow : 2 ^ k ≤ n) (hhigh : n < 2 ^ (k + 1)) : n.log2 = k := by
  have hpos : n ≠ 0 := Nat.ne_of_gt (Nat.lt_of_lt_of_le (Nat.two_pow_pos k) hlow)
  exact (Nat.log2_eq_iff hpos).mpr ⟨hlow, hhigh⟩

/-- Bits that stand for a number, or for infinity, are kept. -/
theorem pack_unpack (h : unpackExponent b = -1#_ → unpackMantissa b = 0#_) :
    UnpackedFloat.pack Format.binary64 (UnpackedFloat.unpack Format.binary64 b) = b := by
  have hmantissa : (unpackMantissa b).toNat < 2 ^ 52 := (unpackMantissa b).isLt
  unfold UnpackedFloat.unpack
  dsimp only
  rw [exponentBias_eq]
  split
  · next hones =>
    rw [if_pos (h hones)]
    exact packComponents_parts hones (h hones)
  · next hones =>
    split
    · next hzero =>
      split
      · next hnone => exact packComponents_parts hzero hnone
      · -- below the least normal number: the exponent is the least one, and the leading bit is zero
        have hlog : ¬ (unpackMantissa b).toNat.log2 + 1 = 53 := by
          intro hlog
          have hpos : (unpackMantissa b).toNat ≠ 0 := by
            intro h0
            rw [h0] at hlog
            exact absurd hlog (by decide)
          have hlow := Nat.log2_self_le hpos
          rw [show (unpackMantissa b).toNat.log2 = 52 by omega] at hlow
          omega
        unfold UnpackedFloat.pack
        dsimp only
        rw [hzero, mantissaBits_eq, if_neg (by decide), if_neg hlog]
        exact packComponents_parts hzero (by rw [BitVec.ofNat_toNat, BitVec.setWidth_eq])
    · next hzero =>
      have hexponent : (unpackExponent b).toNat < 2048 := (unpackExponent b).isLt
      have hlast : (unpackExponent b).toNat ≠ 2047 :=
        fun heq => hones (BitVec.eq_of_toNat_eq heq)
      have hone : (1#1 ++ unpackMantissa b).toNat = 2 ^ 52 + (unpackMantissa b).toNat := by
        rw [BitVec.toNat_append, ← Nat.shiftLeft_add_eq_or_of_lt hmantissa, Nat.shiftLeft_eq]
        rfl
      have hlog : (1#1 ++ unpackMantissa b).toNat.log2 + 1 = 53 := by
        rw [log2_eq (k := 52) (by omega) (by omega)]
      have hbiased : ((unpackExponent b).toNat - ((1023 : Nat) + (52 : Nat) : Int) + (1023 : Nat) +
          (52 : Nat)).toNat = (unpackExponent b).toNat := by omega
      unfold UnpackedFloat.pack
      dsimp only
      rw [exponentBias_eq, mantissaBits_eq, hbiased, if_neg (by show ¬ 2 ^ 11 ≤ _; omega), if_pos hlog]
      refine packComponents_parts ?_ ?_
      · rw [BitVec.ofNat_toNat, BitVec.setWidth_eq]
      · apply BitVec.eq_of_toNat_eq
        rw [BitVec.toNat_ofNat, hone]
        show _ = (2 ^ 52 + (unpackMantissa b).toNat) % 2 ^ 52
        omega

/-- A double is made of its bits, as long as they are not those of a value that is no number. -/
theorem toBits_ofBits {bits : UInt64}
    (h : bits.toNat / 2 ^ 52 % 2048 = 2047 → bits.toNat % 2 ^ 52 = 0) :
    (Float.ofBits bits).toBits = bits := by
  have hmantissa : (@unpackMantissa Format.binary64 bits.toBitVec).toNat = bits.toNat % 2 ^ 52 := by
    unfold unpackMantissa
    rw [BitVec.toNat_cast, BitVec.extractLsb_toNat]
    rfl
  have hkept := @pack_unpack bits.toBitVec fun hones => by
    refine BitVec.eq_of_toNat_eq ?_
    rw [hmantissa]
    refine h ?_
    rw [← unpackExponent_toNat, hones]
    rfl
  exact UInt64.toBitVec_inj.mp hkept

end Bits

/-- A double with a sign. -/
def withSign (negative : Bool) : Binary64 → Binary64
  | .nan => .nan
  | .infinite _ => .infinite negative
  | .finite _ m e => .finite negative m e

theorem ofBits_add_sign (negative : Bool) {magnitude : Nat} (h : magnitude < 2 ^ 63) :
    ofBits (magnitude + if negative then 2 ^ 63 else 0) = withSign negative (ofBits magnitude) := by
  have hnegative : ((magnitude + if negative then 2 ^ 63 else 0) / 2 ^ 63 == 1) = negative := by
    cases negative with
    | false =>
      rw [if_neg Bool.false_ne_true, Nat.add_zero, Nat.div_eq_of_lt h]
      rfl
    | true =>
      rw [if_pos rfl, Nat.add_div_right _ (by decide), Nat.div_eq_of_lt h]
      rfl
  have hexponent : (magnitude + if negative then 2 ^ 63 else 0) / 2 ^ 52 % 2048 =
      magnitude / 2 ^ 52 % 2048 := by
    split <;> omega
  have hfraction : (magnitude + if negative then 2 ^ 63 else 0) % 2 ^ 52 = magnitude % 2 ^ 52 := by
    split <;> omega
  unfold ofBits
  dsimp only
  rw [unit_eq, show signBit = 2 ^ 63 from rfl, hnegative, hexponent, hfraction]
  split
  · split <;> rfl
  · split <;> rfl

/-- What a double stands for that is put together from a sign and the bits below it. -/
theorem ofFloat_assemble (negative : Bool) {magnitude : Nat} (h : magnitude ≤ infinityBits) :
    ofFloat (assemble negative magnitude) = withSign negative (ofBits magnitude) := by
  have hsign : signBit = 2 ^ 63 := rfl
  rw [infinityBits_eq] at h
  have hbits : (UInt64.ofNat (magnitude + if negative then 2 ^ 63 else 0)).toNat =
      magnitude + if negative then 2 ^ 63 else 0 := by
    rw [UInt64.toNat_ofNat', Nat.mod_eq_of_lt]
    split <;> omega
  unfold ofFloat assemble
  rw [hsign, toBits_ofBits, hbits]
  · exact ofBits_add_sign negative (by omega)
  · rw [hbits]
    split <;> omega

/-! ## Normal doubles -/

/-- What normal bits stand for. -/
theorem ofBits_normalBits {m : Nat} {e : Int} (he : -1074 ≤ e) (hlow : 2 ^ 52 ≤ m) (hhigh : m < 2 ^ 53)
    (hfinite : normalBits m e < infinityBits) : ofBits (normalBits m e) = .finite false m e := by
  rw [infinityBits_eq] at hfinite
  unfold normalBits at hfinite ⊢
  rw [unit_eq] at hfinite ⊢
  have hexponent : ((e + 1074).toNat * 2 ^ 52 + m) / 2 ^ 52 = (e + 1075).toNat := by omega
  have hfraction : ((e + 1074).toNat * 2 ^ 52 + m) % 2 ^ 52 = m - 2 ^ 52 := by omega
  have hsign : (((e + 1074).toNat * 2 ^ 52 + m) / signBit == 1) = false := by
    rw [show signBit = 2 ^ 63 from rfl, Nat.div_eq_of_lt (by omega)]
    rfl
  unfold ofBits
  dsimp only
  rw [unit_eq, hsign, hexponent, hfraction, Nat.mod_eq_of_lt (by omega), if_neg (by omega),
    if_neg (by omega), show 2 ^ 52 + (m - 2 ^ 52) = m by omega,
    show ((e + 1075).toNat : Int) - 1075 = e by omega]

/-- A rounded mantissa of fifty-three digits may carry into one more, which is the next exponent. -/
theorem exists_normal {m : Nat} {e : Int} (he : -1074 ≤ e) (hlow : 2 ^ 52 ≤ m) (hhigh : m ≤ 2 ^ 53) :
    ∃ (m' : Nat) (e' : Int), normalBits m' e' = normalBits m e ∧ 2 ^ 52 ≤ m' ∧ m' < 2 ^ 53 ∧ e ≤ e' ∧
      (m' : ℚ) * 2 ^ e' = m * 2 ^ e := by
  by_cases hcarry : m = 2 ^ 53
  · subst hcarry
    refine ⟨2 ^ 52, e + 1, ?_, Nat.le_refl _, by decide, by omega, ?_⟩
    · unfold normalBits
      rw [unit_eq]
      omega
    · rw [zpow_add₀ two_ne_zero]
      push_cast
      ring
  · exact ⟨m, e, rfl, hlow, by omega, Int.le_refl e, rfl⟩

end ChangeReview.Binary64

namespace ChangeReview.Decimal

open Binary64

theorem ratio_spec (m : Nat) (e : Int) :
    0 < (ratio m e).2 ∧ ((ratio m e).1 : ℚ) / (ratio m e).2 = m * 2 ^ e := by
  unfold ratio
  split
  · next h =>
    refine ⟨Nat.one_pos, ?_⟩
    show ((m * 2 ^ e.toNat : Nat) : ℚ) / (1 : Nat) = _
    rw [Nat.cast_mul, cast_pow_toNat h, Nat.cast_one, div_one]
  · next h =>
    refine ⟨Nat.two_pow_pos _, ?_⟩
    show (m : ℚ) / ((2 ^ (-e).toNat : Nat) : ℚ) = _
    rw [cast_pow_toNat (by omega), zpow_neg, div_inv_eq_mul]

theorem units_quotient (places m : Nat) (e : Int) :
    (((ratio m e).1 * Nat.pow 10 places : Nat) : ℚ) / (ratio m e).2 = m * 2 ^ e * 10 ^ places := by
  obtain ⟨-, hvalue⟩ := ratio_spec m e
  rw [← hvalue, Nat.cast_mul, show ((Nat.pow 10 places : Nat) : ℚ) = 10 ^ places by
    rw [Nat.pow_eq, Nat.cast_pow, Nat.cast_ofNat]]
  ring

theorem abs_roundedUnits_sub_le (places m : Nat) (e : Int) :
    |(roundedUnits places m e : ℚ) - m * 2 ^ e * 10 ^ places| ≤ 1 / 2 := by
  rw [← units_quotient]
  exact abs_roundDiv_sub_le (ratio_spec m e).1

theorem roundedUnits_eq {places m n : Nat} {e : Int}
    (h : |(m : ℚ) * 2 ^ e * 10 ^ places - n| < 1 / 2) : roundedUnits places m e = n := by
  rw [← units_quotient] at h
  exact roundDiv_eq (ratio_spec m e).1 h

/-! ## Six places -/

theorem cast_million : ((Nat.pow 10 6 : Nat) : ℚ) = 10 ^ 6 := by norm_num

/-- From `2 ^ 33` on doubles are further apart than millionths: a double rounded to millionths is
nearest to the double itself. A power of two is a whole number there. -/
theorem magnitudeOfRatio_roundedUnits {m : Nat} {e : Int} (he : -19 ≤ e) (hlow : 2 ^ 52 ≤ m)
    (hhigh : m < 2 ^ 53) :
    magnitudeOfRatio (roundedUnits 6 m e) (Nat.pow 10 6) = min (normalBits m e) infinityBits := by
  have hpos : (0 : ℚ) < 2 ^ e := zpow_pos two_pos e
  have hstep : (2 : ℚ) ^ (-19 : Int) ≤ 2 ^ e := zpow_le_zpow_right₀ one_le_two he
  have hlow' : (2 : ℚ) ^ (52 : Int) ≤ m := by exact_mod_cast hlow
  have hhigh' : (m : ℚ) + 1 ≤ 2 ^ (53 : Int) := by exact_mod_cast hhigh
  have hunits := abs_roundedUnits_sub_le 6 m e
  generalize hk : roundedUnits 6 m e = k at hunits
  -- the distance from the double in steps of `2 ^ e`
  have hdistance : |(k : ℚ) / (Nat.pow 10 6 : Nat) / 2 ^ e - m| < 1 / 2 := by
    have hscaled : (k : ℚ) / (Nat.pow 10 6 : Nat) / 2 ^ e - m =
        (k - m * 2 ^ e * 10 ^ 6) / (10 ^ 6 * 2 ^ e) := by
      rw [cast_million]
      field_simp
    have hlarge : (1 : ℚ) < 10 ^ 6 * 2 ^ (-19 : Int) := by norm_num
    have hmore : (10 : ℚ) ^ 6 * 2 ^ (-19 : Int) ≤ 10 ^ 6 * 2 ^ e :=
      mul_le_mul_of_nonneg_left hstep (by positivity)
    have hscale : (0 : ℚ) < 10 ^ 6 * 2 ^ e := by positivity
    rw [hscaled, abs_div, abs_of_pos hscale, div_lt_iff₀ hscale]
    linarith
  have hbounds : (2 : ℚ) ^ (52 : Int) ≤ (k : ℚ) / (Nat.pow 10 6 : Nat) / 2 ^ e ∧
      (k : ℚ) / (Nat.pow 10 6 : Nat) / 2 ^ e < 2 ^ (53 : Int) := by
    rw [abs_lt] at hdistance
    refine ⟨?_, by linarith⟩
    by_cases hleast : m = 2 ^ 52
    · have hwhole : (m : ℚ) * 2 ^ e = ((2 ^ (52 + e).toNat : Nat) : ℚ) := by
        rw [cast_pow_toNat (by omega), zpow_add₀ two_ne_zero, hleast]
        norm_num
      have hexact : k = 2 ^ (52 + e).toNat * 10 ^ 6 := by
        rw [← hk]
        refine roundedUnits_eq ?_
        rw [hwhole, Nat.cast_mul, Nat.cast_pow 10 6, Nat.cast_ofNat, sub_self, abs_zero]
        exact half_pos one_pos
      rw [hexact, cast_million, Nat.cast_mul, ← hwhole, Nat.cast_pow 10 6, Nat.cast_ofNat,
        mul_div_cancel_right₀ _ (by norm_num), mul_div_cancel_right₀ _ hpos.ne']
      exact hlow'
    · have hnext : (2 : ℚ) ^ (52 : Int) + 1 ≤ m := by exact_mod_cast (by omega : 2 ^ 52 + 1 ≤ m)
      linarith
  have hkpos : 0 < k := by
    rcases Nat.eq_zero_or_pos k with rfl | hpos
    · have hbad := hbounds.1
      rw [Nat.cast_zero, zero_div, zero_div] at hbad
      exact absurd hbad (by norm_num)
    · exact hpos
  exact magnitudeOfRatio_nearest hkpos (by decide) (by omega) hbounds.1 hbounds.2 hdistance

/-- Below `2 ^ 33` a double that is nearest to so many millionths is nearest to no others. -/
theorem roundedUnits_of_near {k m : Nat} {e f : Int} (hf : f ≤ -20)
    (h : |(m : ℚ) * 2 ^ e - (k : ℚ) / (Nat.pow 10 6 : Nat)| ≤ 1 / 2 * 2 ^ f) :
    roundedUnits 6 m e = k := by
  have hstep : (2 : ℚ) ^ f ≤ 2 ^ (-20 : Int) := zpow_le_zpow_right₀ one_le_two hf
  have hsmall : (10 : ℚ) ^ 6 * 2 ^ (-20 : Int) < 1 := by norm_num
  refine roundedUnits_eq ?_
  have hscaled : (m : ℚ) * 2 ^ e * 10 ^ 6 - k =
      10 ^ 6 * ((m : ℚ) * 2 ^ e - (k : ℚ) / (Nat.pow 10 6 : Nat)) := by
    rw [cast_million]
    field_simp
  rw [hscaled, abs_mul, abs_of_pos (by positivity)]
  calc (10 : ℚ) ^ 6 * |(m : ℚ) * 2 ^ e - (k : ℚ) / (Nat.pow 10 6 : Nat)|
      ≤ 10 ^ 6 * (1 / 2 * 2 ^ f) := mul_le_mul_of_nonneg_left h (by positivity)
    _ ≤ 10 ^ 6 * (1 / 2 * 2 ^ (-20 : Int)) := by
        refine mul_le_mul_of_nonneg_left ?_ (by positivity)
        exact mul_le_mul_of_nonneg_left hstep (by norm_num)
    _ < 1 / 2 := by linarith

/-- A positive number of millionths is not below `2 ^ -20`. -/
theorem le_floorLog2_millionths {k : Nat} (hk : 0 < k) : -20 ≤ floorLog2 k (Nat.pow 10 6) := by
  have hone : (1 : ℚ) ≤ k := by exact_mod_cast hk
  have hpow : (2 : ℚ) ^ (-20 : Int) < 2 ^ (floorLog2 k (Nat.pow 10 6) + 1) := by
    calc (2 : ℚ) ^ (-20 : Int) < 1 / 10 ^ 6 := by norm_num
      _ ≤ (k : ℚ) / (Nat.pow 10 6 : Nat) := by
          rw [cast_million]
          exact div_le_div_of_nonneg_right hone (by positivity)
      _ < 2 ^ (floorLog2 k (Nat.pow 10 6) + 1) := (floorLog2_spec hk (by decide)).2
  rw [zpow_lt_zpow_iff_right₀ one_lt_two] at hpow
  omega

/-- The double nearest to so many millionths, rounded to millionths, is the nearest to what comes
out. -/
theorem magnitudeOfRatio_again {k : Nat} (hk : 0 < k)
    (hfinite : magnitudeOfRatio k (Nat.pow 10 6) < infinityBits) :
    ∃ m e, ofBits (magnitudeOfRatio k (Nat.pow 10 6)) = .finite false m e ∧
      magnitudeOfRatio (roundedUnits 6 m e) (Nat.pow 10 6) = magnitudeOfRatio k (Nat.pow 10 6) := by
  have hden : 0 < Nat.pow 10 6 := by decide
  have hlog := le_floorLog2_millionths hk
  obtain ⟨hmost, hleast⟩ := mantissa_bounds hk hden
  have hleast := hleast (by omega)
  have hleast_exponent : -1074 ≤ stepExponent k (Nat.pow 10 6) := le_max_right _ _
  have hround := @abs_roundSteps_mul_sub_le k _ hden (stepExponent k (Nat.pow 10 6))
  have hsteps := @magnitudeOfRatio_steps k (Nat.pow 10 6) hk
  generalize stepExponent k (Nat.pow 10 6) = f at *
  generalize roundSteps k (Nat.pow 10 6) f = m at *
  obtain ⟨m', e, hbits, hlow, hhigh, hle, hvalue⟩ := exists_normal hleast_exponent hleast hmost
  have hnormal : normalBits m' e < infinityBits := by
    rw [hsteps] at hfinite
    rw [hbits]
    exact (min_lt_iff.mp hfinite).resolve_right (lt_irrefl _)
  have hmin : magnitudeOfRatio k (Nat.pow 10 6) = normalBits m' e := by
    rw [hsteps, ← hbits, Nat.min_eq_left hnormal.le]
  refine ⟨m', e, ?_, ?_⟩
  · rw [hmin]
    exact ofBits_normalBits (by omega) hlow hhigh hnormal
  · by_cases hsmall : f ≤ -20
    · rw [roundedUnits_of_near hsmall (hvalue ▸ hround)]
    · rw [magnitudeOfRatio_roundedUnits (by omega) hlow hhigh, hmin]
      exact Nat.min_eq_left hnormal.le

theorem magnitudeOfRatio_le_infinityBits (num den : Nat) :
    magnitudeOfRatio num den ≤ infinityBits := by
  unfold magnitudeOfRatio
  split
  · exact Nat.zero_le _
  · exact Nat.min_le_right _ _

theorem roundTo_ofRatio (negative : Bool) (k : Nat) :
    roundTo 6 (ofRatio negative k (Nat.pow 10 6)) = ofRatio negative k (Nat.pow 10 6) := by
  have hle := magnitudeOfRatio_le_infinityBits k (Nat.pow 10 6)
  have hfloat := ofFloat_assemble negative hle
  rcases Nat.eq_zero_or_pos k with rfl | hk
  · unfold roundTo
    cases negative <;> decide +kernel
  rcases Nat.lt_or_eq_of_le hle with hfinite | hinfinite
  · obtain ⟨m, e, hbits, hagain⟩ := magnitudeOfRatio_again hk hfinite
    rw [hbits] at hfloat
    unfold roundTo
    rw [ofRatio, hfloat]
    show assemble negative (magnitudeOfRatio (roundedUnits 6 m e) (Nat.pow 10 6)) = _
    rw [hagain]
  · rw [hinfinite] at hfloat
    have hvalue : ofBits infinityBits = .infinite false := by decide
    rw [hvalue] at hfloat
    unfold roundTo
    rw [ofRatio, hinfinite, hfloat]
    rfl

/-- Rounding to six places a second time changes nothing. -/
theorem roundTo_roundTo (x : Float) : roundTo 6 (roundTo 6 x) = roundTo 6 x := by
  cases hx : ofFloat x with
  | nan | infinite negative =>
    have hsame : roundTo 6 x = x := by
      unfold roundTo
      rw [hx]
    rw [hsame, hsame]
  | finite negative m e =>
    have hround : roundTo 6 x = ofRatio negative (roundedUnits 6 m e) (Nat.pow 10 6) := by
      unfold roundTo
      rw [hx]
    rw [hround]
    exact roundTo_ofRatio negative _

end ChangeReview.Decimal

import ChangeReview.Decimal.Binary64
import Mathlib.Algebra.Order.Field.Power
import Mathlib.Data.Rat.Cast.Order
import Mathlib.Tactic.Linarith
import Mathlib.Tactic.NormNum

/-!
# Quotients and their nearest doubles

A quotient of whole numbers is compared in rational numbers. It lies between two powers of two, and
the lower one settles the step in which the nearest double counts: the rounded number of steps has
fifty-three digits, unless the quotient is too small for that many, and may carry into one more.
-/
namespace ChangeReview

/-- Twice what a quotient is rounded by is at most the denominator. -/
theorem roundDiv_bounds {num den : Nat} (hden : 0 < den) :
    2 * num ≤ 2 * (roundDiv num den * den) + den ∧ 2 * (roundDiv num den * den) ≤ 2 * num + den := by
  have hdiv := Nat.div_add_mod num den
  have hmod := Nat.mod_lt num hden
  have hnext : (num / den + 1) * den = den * (num / den) + den := by rw [Nat.succ_mul, Nat.mul_comm]
  unfold roundDiv
  dsimp only
  split
  · rw [Nat.mul_comm (num / den)]
    omega
  · split
    · rw [hnext]
      omega
    · split
      · rw [Nat.mul_comm (num / den)]
        omega
      · rw [hnext]
        omega

namespace Binary64

theorem unit_eq : unit = 2 ^ 52 := rfl

theorem infinityBits_eq : infinityBits = 2047 * 2 ^ 52 := rfl

section Quotients

variable {num den : Nat}

/-- A rounded quotient is off by half of one at most. -/
theorem abs_roundDiv_sub_le (hden : 0 < den) :
    |(roundDiv num den : ℚ) - (num : ℚ) / den| ≤ 1 / 2 := by
  have hpos : (0 : ℚ) < den := by exact_mod_cast hden
  obtain ⟨hlow, hhigh⟩ := @roundDiv_bounds num den hden
  have hlow : (2 : ℚ) * num ≤ 2 * (roundDiv num den * den) + den := by exact_mod_cast hlow
  have hhigh : (2 : ℚ) * (roundDiv num den * den) ≤ 2 * num + den := by exact_mod_cast hhigh
  rw [abs_le]
  constructor
  · refine le_of_mul_le_mul_right ?_ hpos
    rw [sub_mul, div_mul_cancel₀ _ hpos.ne']
    linarith
  · refine le_of_mul_le_mul_right ?_ hpos
    rw [sub_mul, div_mul_cancel₀ _ hpos.ne']
    linarith

/-- A whole number that is nearer than a half is the rounded quotient. -/
theorem roundDiv_eq (hden : 0 < den) {n : Nat} (h : |(num : ℚ) / den - n| < 1 / 2) :
    roundDiv num den = n := by
  have hround := @abs_roundDiv_sub_le num den hden
  rw [abs_le] at hround
  rw [abs_lt] at h
  have hlow : (roundDiv num den : ℚ) < n + 1 := by linarith
  have hhigh : (n : ℚ) < roundDiv num den + 1 := by linarith
  have hlow' : roundDiv num den < n + 1 := by exact_mod_cast hlow
  have hhigh' : n < roundDiv num den + 1 := by exact_mod_cast hhigh
  omega

/-- Multiplication by a power of two of either sign. -/
theorem cast_pow_toNat {e : Int} (h : 0 ≤ e) : ((2 ^ e.toNat : Nat) : ℚ) = 2 ^ e := by
  rw [Nat.cast_pow, Nat.cast_ofNat, ← zpow_natCast, Int.toNat_of_nonneg h]

/-! ## Steps of a power of two -/

/-- A quotient in steps of a power of two, rounded to a whole number of steps. -/
def roundSteps (num den : Nat) (e : Int) : Nat :=
  if 0 ≤ e then roundDiv num (den * Nat.pow 2 e.toNat)
  else roundDiv (num * Nat.pow 2 (-e).toNat) den

theorem exists_steps (hden : 0 < den) (e : Int) :
    ∃ a b : Nat, 0 < b ∧ (a : ℚ) / b = (num : ℚ) / den / 2 ^ e ∧
      roundSteps num den e = roundDiv a b := by
  have hpos : (0 : ℚ) < den := by exact_mod_cast hden
  unfold roundSteps
  split
  · next h =>
    refine ⟨num, den * 2 ^ e.toNat, Nat.mul_pos hden (Nat.two_pow_pos _), ?_, rfl⟩
    rw [Nat.cast_mul, cast_pow_toNat h, div_div]
  · next h =>
    refine ⟨num * 2 ^ (-e).toNat, den, hden, ?_, rfl⟩
    rw [Nat.cast_mul, cast_pow_toNat (by omega), zpow_neg, div_div, mul_comm (den : ℚ), ← div_div,
      div_eq_mul_inv (num : ℚ) (2 ^ e)]

theorem abs_roundSteps_sub_le (hden : 0 < den) (e : Int) :
    |(roundSteps num den e : ℚ) - (num : ℚ) / den / 2 ^ e| ≤ 1 / 2 := by
  obtain ⟨a, b, hb, hquotient, heq⟩ := @exists_steps num den hden e
  rw [heq, ← hquotient]
  exact abs_roundDiv_sub_le hb

/-- Taken back from steps, the rounded quotient is off by half a step at most. -/
theorem abs_roundSteps_mul_sub_le (hden : 0 < den) (e : Int) :
    |(roundSteps num den e : ℚ) * 2 ^ e - (num : ℚ) / den| ≤ 1 / 2 * 2 ^ e := by
  have hpos : (0 : ℚ) < 2 ^ e := zpow_pos two_pos e
  have hscaled : (roundSteps num den e : ℚ) * 2 ^ e - (num : ℚ) / den =
      (roundSteps num den e - (num : ℚ) / den / 2 ^ e) * 2 ^ e := by
    rw [sub_mul, div_mul_cancel₀ _ hpos.ne']
  rw [hscaled, abs_mul, abs_of_pos hpos]
  exact mul_le_mul_of_nonneg_right (abs_roundSteps_sub_le hden e) hpos.le

theorem roundSteps_eq (hden : 0 < den) {e : Int} {n : Nat}
    (h : |(num : ℚ) / den / 2 ^ e - n| < 1 / 2) : roundSteps num den e = n := by
  obtain ⟨a, b, hb, hquotient, heq⟩ := @exists_steps num den hden e
  rw [heq]
  exact roundDiv_eq hb (hquotient ▸ h)

/-- A rounded quotient is no more than a half away from its bounds. -/
theorem roundSteps_le (hden : 0 < den) {e : Int} {n : Nat} (h : (num : ℚ) / den / 2 ^ e < n) :
    roundSteps num den e ≤ n := by
  have hnear := (abs_le.mp (@abs_roundSteps_sub_le num den hden e)).2
  have hlt : (roundSteps num den e : ℚ) < n + 1 := by linarith
  exact Nat.lt_succ_iff.mp (by exact_mod_cast hlt)

theorem le_roundSteps (hden : 0 < den) {e : Int} {n : Nat} (h : n ≤ (num : ℚ) / den / 2 ^ e) :
    n ≤ roundSteps num den e := by
  have hnear := (abs_le.mp (@abs_roundSteps_sub_le num den hden e)).1
  have hlt : (n : ℚ) < roundSteps num den e + 1 := by linarith
  exact Nat.lt_succ_iff.mp (by exact_mod_cast hlt)

/-! ## The power of two below a quotient -/

theorem reaches_iff (hden : 0 < den) (k : Int) :
    (if 0 ≤ k then den * Nat.pow 2 k.toNat ≤ num else den ≤ num * Nat.pow 2 (-k).toNat) ↔
      (2 : ℚ) ^ k ≤ (num : ℚ) / den := by
  have hpos : (0 : ℚ) < den := by exact_mod_cast hden
  rw [le_div_iff₀ hpos]
  split
  · next h =>
    rw [← cast_pow_toNat h, mul_comm, ← Nat.cast_mul, Nat.cast_le]
    rfl
  · next h =>
    have hpow : (2 : ℚ) ^ k = 1 / ((2 ^ (-k).toNat : Nat) : ℚ) := by
      rw [cast_pow_toNat (by omega), zpow_neg, one_div, inv_inv]
    have hpow_pos : (0 : ℚ) < ((2 ^ (-k).toNat : Nat) : ℚ) := by
      exact_mod_cast Nat.two_pow_pos _
    rw [hpow, one_div_mul_eq_div, div_le_iff₀ hpow_pos, ← Nat.cast_mul, Nat.cast_le]
    rfl

/-- A whole number lies between two powers of two. -/
theorem cast_log2_bounds {n : Nat} (hn : 0 < n) :
    (2 : ℚ) ^ (n.log2 : Int) ≤ n ∧ (n : ℚ) < 2 ^ ((n.log2 : Int) + 1) := by
  rw [show ((n.log2 : Int) + 1) = ((n.log2 + 1 : Nat) : Int) from rfl, zpow_natCast, zpow_natCast]
  exact ⟨by exact_mod_cast Nat.log2_self_le hn.ne', by exact_mod_cast Nat.lt_log2_self⟩

/-- The quotient lies between two powers of two. -/
theorem floorLog2_spec (hnum : 0 < num) (hden : 0 < den) :
    (2 : ℚ) ^ floorLog2 num den ≤ (num : ℚ) / den ∧
      (num : ℚ) / den < 2 ^ (floorLog2 num den + 1) := by
  have hpos : (0 : ℚ) < den := by exact_mod_cast hden
  obtain ⟨hnum_low, hnum_high⟩ := cast_log2_bounds hnum
  obtain ⟨hden_low, hden_high⟩ := cast_log2_bounds hden
  generalize hk : (num.log2 : Int) - den.log2 = k
  have hlow : (2 : ℚ) ^ (k - 1) ≤ (num : ℚ) / den := by
    rw [le_div_iff₀ hpos]
    calc (2 : ℚ) ^ (k - 1) * den ≤ 2 ^ (k - 1) * 2 ^ ((den.log2 : Int) + 1) :=
          mul_le_mul_of_nonneg_left hden_high.le (zpow_nonneg two_pos.le _)
      _ = 2 ^ (num.log2 : Int) := by
          rw [← zpow_add₀ two_ne_zero]
          congr 1
          omega
      _ ≤ num := hnum_low
  have hhigh : (num : ℚ) / den < 2 ^ (k + 1) := by
    rw [div_lt_iff₀ hpos]
    calc (num : ℚ) < 2 ^ ((num.log2 : Int) + 1) := hnum_high
      _ = 2 ^ (k + 1) * 2 ^ (den.log2 : Int) := by
          rw [← zpow_add₀ two_ne_zero]
          congr 1
          omega
      _ ≤ 2 ^ (k + 1) * den := mul_le_mul_of_nonneg_left hden_low (zpow_nonneg two_pos.le _)
  have hreaches := @reaches_iff num den hden k
  unfold floorLog2
  rw [hk]
  dsimp only
  by_cases h : (2 : ℚ) ^ k ≤ (num : ℚ) / den
  · rw [if_pos (hreaches.mpr h)]
    exact ⟨h, hhigh⟩
  · rw [if_neg fun hr => h (hreaches.mp hr), sub_add_cancel]
    exact ⟨hlow, not_le.mp h⟩

theorem floorLog2_eq (hnum : 0 < num) (hden : 0 < den) {k : Int} (hlow : (2 : ℚ) ^ k ≤ (num : ℚ) / den)
    (hhigh : (num : ℚ) / den < 2 ^ (k + 1)) : floorLog2 num den = k := by
  obtain ⟨hlow', hhigh'⟩ := floorLog2_spec hnum hden
  have h1 : (2 : ℚ) ^ k < 2 ^ (floorLog2 num den + 1) := lt_of_le_of_lt hlow hhigh'
  have h2 : (2 : ℚ) ^ floorLog2 num den < 2 ^ (k + 1) := lt_of_le_of_lt hlow' hhigh
  rw [zpow_lt_zpow_iff_right₀ one_lt_two] at h1 h2
  omega

/-- Below a power of two, in whole numbers. -/
theorem lt_two_pow_mul (hden : 0 < den) {k : Nat} :
    (num : ℚ) / den < 2 ^ (k : Int) ↔ num < 2 ^ k * den := by
  have hcast : (0 : ℚ) < den := by exact_mod_cast hden
  rw [div_lt_iff₀ hcast, zpow_natCast, ← Nat.cast_ofNat, ← Nat.cast_pow, ← Nat.cast_mul, Nat.cast_lt]

/-! ## Doubles nearest to quotients -/

/-- The bits of the double with a mantissa of fifty-three digits. -/
def normalBits (m : Nat) (e : Int) : Nat := (e + 1074).toNat * unit + m

/-- The power of two of which the mantissa counts the steps. -/
def stepExponent (num den : Nat) : Int := max (floorLog2 num den - 52) (-1074)

theorem magnitudeOfRatio_steps (hnum : 0 < num) :
    magnitudeOfRatio num den =
      min (normalBits (roundSteps num den (stepExponent num den)) (stepExponent num den))
        infinityBits := by
  unfold magnitudeOfRatio
  rw [if_neg hnum.ne']
  rfl

theorem stepExponent_eq (h : -1022 ≤ floorLog2 num den) :
    stepExponent num den = floorLog2 num den - 52 := max_eq_left (by omega)

/-- The quotient fills the mantissa, unless it is too small for it. -/
theorem steps_bounds (hnum : 0 < num) (hden : 0 < den) :
    (num : ℚ) / den / 2 ^ stepExponent num den < (2 ^ 53 : Nat) ∧
      (-1022 ≤ floorLog2 num den →
        ((2 ^ 52 : Nat) : ℚ) ≤ (num : ℚ) / den / 2 ^ stepExponent num den) := by
  obtain ⟨hlow, hhigh⟩ := floorLog2_spec hnum hden
  have hpos : (0 : ℚ) < 2 ^ stepExponent num den := zpow_pos two_pos _
  constructor
  · rw [div_lt_iff₀ hpos]
    calc (num : ℚ) / den < 2 ^ (floorLog2 num den + 1) := hhigh
      _ ≤ 2 ^ (53 + stepExponent num den) :=
          zpow_le_zpow_right₀ one_le_two (by unfold stepExponent; omega)
      _ = ((2 ^ 53 : Nat) : ℚ) * 2 ^ stepExponent num den := by
          rw [zpow_add₀ two_ne_zero]
          norm_num
  · intro hnormal
    rw [le_div_iff₀ hpos]
    calc ((2 ^ 52 : Nat) : ℚ) * 2 ^ stepExponent num den = 2 ^ (52 + stepExponent num den) := by
          rw [zpow_add₀ two_ne_zero]
          norm_num
      _ = 2 ^ floorLog2 num den := by rw [stepExponent_eq hnormal, add_sub_cancel]
      _ ≤ (num : ℚ) / den := hlow

/-- A mantissa that carries has the next power of two. -/
theorem mantissa_bounds (hnum : 0 < num) (hden : 0 < den) :
    roundSteps num den (stepExponent num den) ≤ 2 ^ 53 ∧
      (-1022 ≤ floorLog2 num den → 2 ^ 52 ≤ roundSteps num den (stepExponent num den)) := by
  obtain ⟨hmost, hleast⟩ := steps_bounds hnum hden
  exact ⟨roundSteps_le hden hmost, fun hnormal => le_roundSteps hden (hleast hnormal)⟩

/-- The bits grow with the power of two that a quotient stays below. -/
theorem magnitudeOfRatio_le (hden : 0 < den) {k : Nat} (h : num < 2 ^ k * den) :
    magnitudeOfRatio num den ≤ (k + 1024) * 2 ^ 52 := by
  rcases Nat.eq_zero_or_pos num with rfl | hnum
  · rw [magnitudeOfRatio, if_pos rfl]
    exact Nat.zero_le _
  have hlog : floorLog2 num den < k := by
    have hpow := (floorLog2_spec hnum hden).1.trans_lt ((lt_two_pow_mul hden).mpr h)
    rwa [zpow_lt_zpow_iff_right₀ one_lt_two] at hpow
  have hexponent : (stepExponent num den + 1074).toNat ≤ k + 1021 := by unfold stepExponent; omega
  have hmantissa := (mantissa_bounds hnum hden).1
  rw [magnitudeOfRatio_steps hnum]
  refine (Nat.min_le_left _ _).trans ?_
  calc (stepExponent num den + 1074).toNat * 2 ^ 52 + roundSteps num den (stepExponent num den)
      ≤ (k + 1021) * 2 ^ 52 + 2 ^ 53 := Nat.add_le_add (Nat.mul_le_mul_right _ hexponent) hmantissa
    _ ≤ (k + 1024) * 2 ^ 52 := by omega

/-- The double whose steps of `2 ^ e` a quotient is nearest to. -/
theorem magnitudeOfRatio_nearest {m : Nat} {e : Int} (hnum : 0 < num) (hden : 0 < den)
    (he : -1074 ≤ e) (hlow : (2 : ℚ) ^ (52 : Int) ≤ (num : ℚ) / den / 2 ^ e)
    (hhigh : (num : ℚ) / den / 2 ^ e < 2 ^ (53 : Int))
    (hnear : |(num : ℚ) / den / 2 ^ e - m| < 1 / 2) :
    magnitudeOfRatio num den = min (normalBits m e) infinityBits := by
  have hpos : (0 : ℚ) < 2 ^ e := zpow_pos two_pos e
  have hlog : floorLog2 num den = e + 52 := by
    refine floorLog2_eq hnum hden ?_ ?_
    · rw [le_div_iff₀ hpos, ← zpow_add₀ two_ne_zero] at hlow
      rwa [add_comm]
    · rw [div_lt_iff₀ hpos, ← zpow_add₀ two_ne_zero] at hhigh
      rwa [show e + 52 + 1 = 53 + e by omega]
  rw [magnitudeOfRatio_steps hnum, stepExponent_eq (by omega), hlog, add_sub_cancel_right,
    roundSteps_eq hden hnear]

end Quotients

end Binary64

end ChangeReview

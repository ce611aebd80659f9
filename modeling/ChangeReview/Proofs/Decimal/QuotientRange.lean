import ChangeReview.Decimal.Literal
import ChangeReview.Proofs.Decimal.Quotients
import Mathlib.Algebra.Ring.Nat

/-!
# The range of doubles

The doubles end half a step behind the greatest one: a whole number has a nearest double just below
that limit, and a quotient of whole numbers just where it is below it. The bits of the nearest double
are compared with those of infinity, by the power of two that the quotient reaches.
-/
namespace ChangeReview.Binary64

/-! ## The limit -/

/-- The first whole number that no double is near to. -/
def wholeLimit : Nat := 2 ^ 1024 - 2 ^ 970

theorem wholeLimit_eq : wholeLimit = (2 ^ 54 - 1) * 2 ^ 970 := by
  have htop : 2 ^ 1024 = 2 ^ 54 * 2 ^ 970 := by rw [← Nat.pow_add]
  unfold wholeLimit
  rw [htop]
  generalize 2 ^ 970 = h
  omega

theorem wholeLimit_bounds : 2 ^ 1023 ≤ wholeLimit ∧ wholeLimit < 2 ^ 1024 := by
  have hfirst : 2 ^ 1023 = 2 ^ 53 * 2 ^ 970 := by rw [← Nat.pow_add]
  have hsecond : 2 ^ 1024 = 2 ^ 54 * 2 ^ 970 := by rw [← Nat.pow_add]
  have hpos : 0 < 2 ^ 970 := Nat.two_pow_pos 970
  unfold wholeLimit
  rw [hfirst, hsecond]
  generalize 2 ^ 970 = h at *
  omega

/-- The limit is above every number of fifty-three digits in steps of the last power of two. -/
theorem mul_lt_wholeLimit {m : Nat} (hm : m < 2 ^ 53) : m * 2 ^ 971 < wholeLimit := by
  have hhalf : 2 ^ 971 = 2 * 2 ^ 970 := by rw [Nat.mul_comm, ← Nat.pow_succ]
  rw [wholeLimit_eq, hhalf, ← Nat.mul_assoc]
  exact Nat.mul_lt_mul_of_pos_right (by omega) (Nat.two_pow_pos 970)

/-! ## Half a step behind the last double -/

theorem roundDiv_le (num den : Nat) : roundDiv num den ≤ num / den + 1 := by
  unfold roundDiv
  dsimp only
  split
  · exact Nat.le_succ _
  · split
    · exact Nat.le_refl _
    · split <;> omega

/-- Only less than half a step above an odd quotient is rounded down. -/
theorem roundDiv_odd_lt {num den : Nat} (hodd : num / den % 2 = 1) :
    roundDiv num den < num / den + 1 ↔ 2 * (num % den) < den := by
  unfold roundDiv
  dsimp only
  split
  · omega
  · split
    · omega
    · rw [if_neg (by omega)]
      omega

/-- A quotient in steps of `2 * h` keeps to fifty-three digits up to the half behind the last one. -/
theorem roundDiv_lt_iff {n h : Nat} (hh : 0 < h) (hq : n / (2 * h) < 2 ^ 53) :
    roundDiv n (2 * h) < 2 ^ 53 ↔ n < (2 ^ 54 - 1) * h := by
  have hdiv := Nat.div_add_mod n (2 * h)
  have hmod := Nat.mod_lt n (show 0 < 2 * h by omega)
  have hround := roundDiv_le n (2 * h)
  have hodd := @roundDiv_odd_lt n (2 * h)
  generalize roundDiv n (2 * h) = m at *
  generalize n % (2 * h) = r at *
  generalize n / (2 * h) = q at *
  by_cases hlast : q = 2 ^ 53 - 1
  · subst hlast
    have hm := hodd (by decide)
    rw [← hdiv, Nat.mul_comm]
    omega
  · have hless : 2 * h * q + 2 * h ≤ (2 ^ 53 - 1) * (2 * h) := by
      rw [← Nat.mul_succ, Nat.mul_comm]
      exact Nat.mul_le_mul_right (2 * h) (by omega)
    omega

section Ratio

variable {num den : Nat}

/-- Where the last power of two is reached, the rounded mantissa decides. -/
theorem roundSteps_last (hden : 0 < den) (h : num < 2 ^ 1024 * den) :
    roundSteps num den 971 < 2 ^ 53 ↔ num < wholeLimit * den := by
  have hhalf : 2 ^ 971 = 2 * 2 ^ 970 := by rw [Nat.mul_comm, ← Nat.pow_succ]
  have htop : 2 ^ 1024 = 2 ^ 53 * 2 ^ 971 := by rw [← Nat.pow_add]
  have hstep : den * 2 ^ 971 = 2 * (2 ^ 970 * den) := by
    rw [hhalf, Nat.mul_comm den, Nat.mul_assoc]
  have hpos : 0 < 2 ^ 970 * den := Nat.mul_pos (Nat.two_pow_pos 970) hden
  have hq : num / (2 * (2 ^ 970 * den)) < 2 ^ 53 := by
    rwa [Nat.div_lt_iff_lt_mul (by omega), ← hstep, Nat.mul_comm den, ← Nat.mul_assoc, ← htop]
  have hsteps : roundSteps num den 971 = roundDiv num (den * 2 ^ 971) := if_pos (by decide)
  rw [hsteps, hstep, wholeLimit_eq, Nat.mul_assoc]
  exact roundDiv_lt_iff hpos hq

/-- The bits of infinity are reached just where the limit is. -/
theorem magnitudeOfRatio_lt_infinityBits_iff (hden : 0 < den) :
    magnitudeOfRatio num den < infinityBits ↔ num < wholeLimit * den := by
  rcases Nat.eq_zero_or_pos num with rfl | hnum
  · have hpos : 0 < wholeLimit * den :=
      Nat.mul_pos (lt_of_lt_of_le (Nat.two_pow_pos 1023) wholeLimit_bounds.1) hden
    have hzero : magnitudeOfRatio 0 den = 0 := if_pos rfl
    rw [hzero, infinityBits_eq]
    exact iff_of_true (by decide) hpos
  obtain ⟨hlimit, hlimit'⟩ := wholeLimit_bounds
  obtain ⟨hlow, hhigh⟩ := floorLog2_spec hnum hden
  obtain ⟨hmost, hleast⟩ := mantissa_bounds hnum hden
  rw [magnitudeOfRatio_steps hnum, min_lt_iff, or_iff_left (lt_irrefl _), infinityBits_eq]
  unfold normalBits
  rw [unit_eq]
  rcases lt_trichotomy (floorLog2 num den) 1023 with hbelow | hlast | hbeyond
  · -- below the last power of two even a mantissa that carries stays finite
    have hexponent : (stepExponent num den + 1074).toNat ≤ 2044 := by unfold stepExponent; omega
    have hless : num < 2 ^ 1023 * den :=
      (lt_two_pow_mul hden).mp (hhigh.trans_le (zpow_le_zpow_right₀ one_le_two (by omega)))
    refine iff_of_true ?_ (hless.trans_le (Nat.mul_le_mul_right den hlimit))
    have hbits := Nat.mul_le_mul_right (2 ^ 52) hexponent
    omega
  · have hexponent : stepExponent num den = 971 := by unfold stepExponent; omega
    rw [hlast] at hhigh
    rw [hexponent, ← roundSteps_last hden ((lt_two_pow_mul hden).mp hhigh)]
    show 2045 * 2 ^ 52 + roundSteps num den 971 < 2047 * 2 ^ 52 ↔ _
    omega
  · have hexponent : 2046 ≤ (stepExponent num den + 1074).toNat := by unfold stepExponent; omega
    have hleast := hleast (by omega)
    have hmore : 2 ^ 1024 * den ≤ num := Nat.not_lt.mp fun hless =>
      absurd ((lt_two_pow_mul hden).mpr hless)
        (not_lt.mpr ((zpow_le_zpow_right₀ one_le_two (by omega)).trans hlow))
    refine iff_of_false ?_ ?_
    · have hbits := Nat.mul_le_mul_right (2 ^ 52) hexponent
      omega
    · exact Nat.not_lt.mpr ((Nat.mul_le_mul_right den hlimit'.le).trans hmore)

end Ratio

/-! ## Quotients -/

/-- A quotient has a nearest double just below the limit. -/
theorem divInts?_isSome {b : Int} (hb : b ≠ 0) (a : Int) :
    (divInts? a b).isSome = true ↔ a.natAbs < wholeLimit * b.natAbs := by
  rw [← magnitudeOfRatio_lt_infinityBits_iff (Int.natAbs_pos.mpr hb)]
  unfold divInts?
  dsimp only
  split
  · next h => exact iff_of_true rfl h
  · next h => exact iff_of_false (by simp) h

/-- Numbers that are not negative have the quotient without a sign. -/
theorem divInts?_natCast {num den : Nat} (hden : 0 < den) (h : num < wholeLimit * den) :
    divInts? num den = some (ofRatio false num den) := by
  have hsign : (decide ((num : Int) < 0) != decide ((den : Int) < 0)) = false := by
    rw [decide_eq_false (Int.not_lt.mpr (Int.natCast_nonneg num)),
      decide_eq_false (Int.not_lt.mpr (Int.natCast_nonneg den))]
    rfl
  unfold divInts? ofRatio
  rw [hsign]
  exact if_pos ((magnitudeOfRatio_lt_infinityBits_iff hden).mpr h)

/-! ## Whole numbers -/

theorem magnitudeOfRatio_lt_iff (n : Nat) : magnitudeOfRatio n 1 < infinityBits ↔ n < wholeLimit := by
  rw [magnitudeOfRatio_lt_infinityBits_iff Nat.one_pos, Nat.mul_one]

theorem ofInt?_isSome (n : Int) : (ofInt? n).isSome = true ↔ n.natAbs < wholeLimit := by
  rw [← magnitudeOfRatio_lt_iff]
  unfold ofInt?
  dsimp only
  split
  · next h => exact iff_of_true rfl h
  · next h => exact iff_of_false (by simp) h

end ChangeReview.Binary64

namespace ChangeReview.Decimal

/-- A whole number has a nearest double just below the limit. -/
theorem nearest_eq_ok_iff (n : Int) :
    (∃ x, nearest n = .ok x) ↔ n.natAbs < Binary64.wholeLimit := by
  rw [← Binary64.ofInt?_isSome]
  unfold nearest
  cases Binary64.ofInt? n with
  | some x => exact iff_of_true ⟨x, rfl⟩ rfl
  | none => exact iff_of_false (by simp) (by simp)

end ChangeReview.Decimal

import ChangeReview.Proofs.Decimal.Rounding
import ChangeReview.Repository.Disk

/-!
# Whole seconds

Whole numbers below `2 ^ 53` are doubles. Between two points in time that are whole numbers of
seconds the clock tells the time exactly, although it reckons in doubles.
-/
namespace ChangeReview

namespace Binary64

/-- A positive whole number of at most fifty-three binary digits has a mantissa of that many. -/
theorem exists_mantissa {n : Nat} (hpos : 0 < n) (hn : n < 2 ^ 53) :
    ∃ (m : Nat) (e : Int), -1074 ≤ e ∧ e ≤ 0 ∧ 2 ^ 52 ≤ m ∧ m < 2 ^ 53 ∧ (m : ℚ) * 2 ^ e = n := by
  have hlow : 2 ^ n.log2 ≤ n := Nat.log2_self_le hpos.ne'
  have hhigh : n < 2 ^ (n.log2 + 1) := Nat.lt_log2_self
  have hlog : n.log2 ≤ 52 := Nat.lt_succ_iff.mp ((Nat.log2_lt hpos.ne').mpr hn)
  have hpow : 2 ^ n.log2 * 2 ^ (52 - n.log2) = 2 ^ 52 := by
    rw [← Nat.pow_add, Nat.add_sub_cancel' hlog]
  refine ⟨n * 2 ^ (52 - n.log2), (n.log2 : Int) - 52, by omega, by omega, ?_, ?_, ?_⟩
  · rw [← hpow]
    exact Nat.mul_le_mul_right _ hlow
  · have hmore := Nat.mul_lt_mul_of_pos_right hhigh (Nat.two_pow_pos (52 - n.log2))
    rw [Nat.pow_succ, Nat.mul_right_comm, hpow] at hmore
    exact hmore
  · have hexponent : ((52 - n.log2 : Nat) : Int) + ((n.log2 : Int) - 52) = 0 := by omega
    rw [Nat.cast_mul, Nat.cast_pow, Nat.cast_ofNat, mul_assoc, ← zpow_natCast,
      ← zpow_add₀ two_ne_zero, hexponent, zpow_zero, mul_one]

/-- The value of the double nearest to a whole number is the number. -/
theorem value?_whole {n : Nat} (hn : n < 2 ^ 53) :
    (ofBits (magnitudeOfRatio n 1)).value? = some (n : ℚ) := by
  rcases Nat.eq_zero_or_pos n with rfl | hpos
  · decide +kernel
  obtain ⟨m, e, he, hsmall, hlow, hhigh, hvalue⟩ := exists_mantissa hpos hn
  have hstep : (0 : ℚ) < 2 ^ e := zpow_pos two_pos e
  have hsteps : (n : ℚ) / (1 : Nat) / 2 ^ e = m := by
    rw [← hvalue, Nat.cast_one, div_one, mul_div_cancel_right₀ _ hstep.ne']
  have hfinite : normalBits m e < infinityBits := by
    rw [infinityBits_eq]
    unfold normalBits
    rw [unit_eq]
    omega
  have hbits : magnitudeOfRatio n 1 = normalBits m e := by
    rw [magnitudeOfRatio_nearest hpos Nat.one_pos he (m := m), Nat.min_eq_left hfinite.le]
    · rw [hsteps]
      exact_mod_cast hlow
    · rw [hsteps]
      exact_mod_cast hhigh
    · rw [hsteps, sub_self, abs_zero]
      exact half_pos one_pos
  obtain ⟨hden, hratio⟩ := Decimal.ratio_spec m e
  rw [hbits, ofBits_normalBits he hlow hhigh hfinite]
  show some (mkRat ((ratio m e).1 : Int) (ratio m e).2) = _
  rw [Rat.mkRat_eq_div, Int.cast_natCast, hratio, hvalue]

theorem rounded_whole {n : Int} (hn : n.natAbs < 2 ^ 53) : rounded n = n := by
  have hvalue := value?_whole hn
  unfold rounded
  rw [Rat.num_intCast, Rat.den_intCast, hvalue]
  dsimp only
  rw [Nat.cast_natAbs]
  split
  · next h =>
    rw [Int.cast_abs, abs_of_neg h, neg_neg]
  · next h =>
    rw [Int.cast_abs, abs_of_nonneg (not_lt.mp h)]

end Binary64

namespace Instant

theorem nanoseconds_whole (n : Int) : nanoseconds n = n * 1000000000 := by
  unfold nanoseconds
  exact_mod_cast Rat.floor_intCast (n * 1000000000)

/-- A file keeps whole seconds as they are. -/
theorem kept_whole (n : Int) : kept n = n := by
  unfold kept
  rw [nanoseconds_whole, Rat.mkRat_eq_div]
  push_cast
  exact mul_div_cancel_right₀ _ (by norm_num)

theorem told_whole {n : Int} (hn : n.natAbs < 2 ^ 53) : told n = n := by
  have hfraction : n * 1000000000 % 1000000000 = 0 := Int.mul_emod_left n _
  have hseconds : n * 1000000000 / 1000000000 = n := Int.mul_ediv_cancel n (by decide)
  have hzero : Binary64.rounded 0 = 0 := by exact_mod_cast @Binary64.rounded_whole 0 (by decide)
  unfold told
  dsimp only
  rw [nanoseconds_whole, hfraction, hseconds, Int.cast_zero, mul_zero, hzero, add_zero,
    Binary64.rounded_whole hn]

/-- The time between two whole numbers of seconds. -/
theorem since_whole {written now : Int} (hwritten : written.natAbs < 2 ^ 53)
    (hnow : now.natAbs < 2 ^ 53) (hbetween : (now - written).natAbs < 2 ^ 53) :
    since (kept written) now = now - written := by
  unfold since
  rw [kept_whole, told_whole hwritten, Binary64.rounded_whole hnow, ← Int.cast_sub,
    Binary64.rounded_whole hbetween]

end Instant

end ChangeReview

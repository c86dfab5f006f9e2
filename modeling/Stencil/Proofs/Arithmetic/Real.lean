import Mathlib.Data.Nat.Cast.Order.Field
import Mathlib.Data.Real.Basic
import Mathlib.Tactic.Linarith
import Stencil.Proofs.Arithmetic.Brink
/-!
# Doubles as real numbers

A double stands for a real number. For sums, differences, products and quotients the brink says which
exact results have no double, and one rounding makes a result larger by one part in 2^52 at most.
-/

namespace Stencil.Double

variable {x y : Double}

noncomputable def value (x : Double) : ℝ := x.signed / unit

noncomputable def top : ℝ := brink / unit

/-- What one rounding makes of a result at most, as a factor. -/
noncomputable def share : ℝ := (twoTo 52 + 1 : Nat) / twoTo 52

theorem cast_twoTo_pos (n : Nat) : (0 : ℝ) < twoTo n := Nat.cast_pos.mpr (twoTo_pos n)

theorem cast_unit_pos : (0 : ℝ) < unit := Nat.cast_pos.mpr unit_pos

/-! ## Values -/

theorem abs_div_unit (n : Int) : |(n : ℝ) / unit| = n.natAbs / unit := by
  rw [abs_div, abs_of_pos cast_unit_pos, Nat.cast_natAbs, Int.cast_abs]

theorem natAbs_signed (x : Double) : x.signed.natAbs = x.steps := by
  unfold signed
  split <;> simp

theorem abs_value (x : Double) : |x.value| = x.steps / unit := by
  rw [value, abs_div_unit, natAbs_signed]

theorem value_eq_zero_iff : x.value = 0 ↔ x.isZero = true := by
  rw [← abs_eq_zero, abs_value, div_eq_zero_iff, or_iff_left cast_unit_pos.ne', isZero_iff,
    Nat.cast_eq_zero]

theorem value_neg (hneg : x.negative = true) (hx : ¬ x.isZero = true) : x.value < 0 := by
  have hsigned : x.signed = -x.steps := by simp [signed, hneg]
  have hpos : (0 : ℝ) < x.steps := Nat.cast_pos.mpr (Nat.pos_of_ne_zero (mt isZero_iff.mpr hx))
  rw [value, hsigned, Int.cast_neg, Int.cast_natCast]
  exact div_neg_of_neg_of_pos (neg_neg_of_pos hpos) cast_unit_pos

theorem isWhole_of_value {k : Int} (h : x.value = k) : x.isWhole = true := by
  have habs : (x.steps : ℝ) / unit = k.natAbs := by
    rw [← abs_value, h, Nat.cast_natAbs, Int.cast_abs]
  have hsteps : x.steps = k.natAbs * unit := by
    rw [div_eq_iff cast_unit_pos.ne'] at habs
    exact_mod_cast habs
  exact beq_iff_eq.mpr (Nat.mod_eq_zero_of_dvd ⟨k.natAbs, by rw [hsteps, Nat.mul_comm]⟩)

/-! ## Results without a double -/

theorem top_le_div_unit {n : Nat} : top ≤ n / unit ↔ brink ≤ n := by
  rw [top, div_le_div_iff_of_pos_right cast_unit_pos, Nat.cast_le]

theorem top_pos : 0 < top :=
  div_pos (Nat.cast_pos.mpr (Nat.lt_of_lt_of_le (twoTo_pos 2097) twoTo_le_brink)) cast_unit_pos

theorem abs_value_lt_top (x : Double) : |x.value| < top := by
  rw [abs_value, ← not_le, top_le_div_unit, Nat.not_le]
  exact x.steps_lt_brink

theorem add_eq_none_iff_top : x.add y = none ↔ top ≤ |x.value + y.value| := by
  rw [add_eq_none_iff, value, value, ← add_div, ← Int.cast_add, abs_div_unit, top_le_div_unit]

theorem sub_eq_none_iff_top : x.sub y = none ↔ top ≤ |x.value - y.value| := by
  rw [sub_eq_none_iff, value, value, ← sub_div, ← Int.cast_sub, abs_div_unit, top_le_div_unit]

theorem mul_eq_none_iff_top : x.mul y = none ↔ top ≤ |x.value * y.value| := by
  rw [mul_eq_none_iff, abs_mul, abs_value, abs_value, div_mul_div_comm, top,
    div_le_div_iff₀ cast_unit_pos (mul_pos cast_unit_pos cast_unit_pos), ← mul_assoc,
    mul_le_mul_iff_left₀ cast_unit_pos]
  norm_cast

theorem div_eq_none_iff_top (hy : ¬ y.isZero = true) : x.div y = none ↔ top ≤ |x.value / y.value| := by
  have hpos : (0 : ℝ) < y.steps := Nat.cast_pos.mpr (Nat.pos_of_ne_zero (mt isZero_iff.mpr hy))
  rw [div_eq_none_iff, abs_div, abs_value, abs_value, div_div_div_cancel_right₀ cast_unit_pos.ne', top,
    div_le_div_iff₀ cast_unit_pos hpos]
  norm_cast

/-! ## What rounding adds -/

theorem one_le_share : 1 ≤ share := by
  rw [share, one_le_div (cast_twoTo_pos 52)]
  exact_mod_cast Nat.le_succ _

theorem share_pow_le {n : Nat} (h : n ≤ 1021) : share ^ n ≤ 3 / 2 := by
  have hclosed : 2 * (twoTo 52 + 1) ^ 1021 ≤ 3 * twoTo 52 ^ 1021 := by decide +kernel
  generalize 1021 = m at h hclosed
  calc share ^ n ≤ share ^ m := pow_le_pow_right₀ one_le_share h
    _ ≤ 3 / 2 := by
        rw [share, div_pow, div_le_div_iff₀ (pow_pos (cast_twoTo_pos 52) _) two_pos, mul_comm]
        exact_mod_cast hclosed

theorem mul_roundSteps_le {num den : Nat} (h : spare (num / den) ≠ 0) :
    twoTo 52 * roundSteps num den ≤ (twoTo 52 + 1) * (num / den) := by
  have hround := Nat.mul_le_mul_left (twoTo 52) (roundSteps_le_add num den)
  have hspare := twoTo_spare_le h
  rw [Nat.mul_add] at hround
  rw [Nat.succ_mul]
  omega

theorem roundSteps_le_share {num den : Nat} (h : spare (num / den) ≠ 0) :
    (roundSteps num den : ℝ) ≤ num / den * share := by
  have hround : (twoTo 52 * roundSteps num den : ℝ) ≤ (twoTo 52 + 1 : Nat) * (num / den : Nat) := by
    exact_mod_cast mul_roundSteps_le h
  rw [share, mul_div_assoc', le_div_iff₀ (cast_twoTo_pos 52), mul_comm, mul_comm ((num : ℝ) / den)]
  exact hround.trans (mul_le_mul_of_nonneg_left Nat.cast_div_le (Nat.cast_nonneg _))

theorem roundSteps_one_le_share (n : Nat) : (roundSteps n 1 : ℝ) ≤ n * share := by
  by_cases h : spare n = 0
  · have hexact : roundSteps n 1 = n := roundSteps_exact (by rw [h]; exact Nat.one_dvd n)
    rw [hexact]
    exact le_mul_of_one_le_right (Nat.cast_nonneg n) one_le_share
  · rw [← Nat.div_one n] at h
    have hround := roundSteps_le_share h
    rwa [Nat.cast_one, div_one] at hround

end Stencil.Double

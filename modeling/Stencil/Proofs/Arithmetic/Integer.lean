import Stencil.Arguments
import Stencil.Proofs.Arithmetic.Brink
/-!
# Numbers as integer arguments

A function that asks for an integer gets the whole part of a number, toward zero, if the signed range
holds it. Past the range the numbers that round to 2^63 count as its end, and all others are refused.
-/

namespace Stencil

def Signed (n : Int) : Prop := -9223372036854775808 ≤ n ∧ n < 9223372036854775808

instance : DecidablePred Signed := fun n =>
  inferInstanceAs (Decidable (-9223372036854775808 ≤ n ∧ n < 9223372036854775808))

theorem signed_iff {n : Int} :
    Signed n ↔ -9223372036854775808 ≤ n ∧ n < 9223372036854775808 := Iff.rfl

def Number.trunc : Number → Int
  | .whole n => n.val
  | .double x => x.signed.tdiv Double.unit

/-- That a number is past the signed range, but by no more than half of the way to the double after
2^63. -/
def Number.RoundsToEnd (n : Number) : Prop :=
  9223372036854775808 ≤ n.trunc ∧ n.trunc ≤ 9223372036854775808 + 1024

instance : DecidablePred Number.RoundsToEnd := fun n =>
  inferInstanceAs
    (Decidable (9223372036854775808 ≤ n.trunc ∧ n.trunc ≤ 9223372036854775808 + 1024))

theorem Number.roundsToEnd_iff {n : Number} : n.RoundsToEnd ↔
    9223372036854775808 ≤ n.trunc ∧ n.trunc ≤ 9223372036854775808 + 1024 := Iff.rfl

/-! ## Doubles around 2^63 -/

namespace Double

theorem gap_eq : twoTo 1085 = 2048 * unit := by
  have hgap : twoTo 11 = 2048 := by decide
  rw [← hgap, twoTo_mul_unit]

theorem steps_past_signed {x : Double} (h : twoTo 63 * unit < x.steps) :
    (twoTo 63 + 2048) * unit ≤ x.steps := by
  have hstart : twoTo 63 * unit = twoTo 1085 * twoTo 52 := by
    rw [twoTo_mul_unit, ← twoTo_add]
  have hspare : 1085 ≤ spare x.steps := by
    have hne : x.steps ≠ 0 := Nat.ne_of_gt (Nat.lt_of_le_of_lt (Nat.zero_le _) h)
    have hlog : ¬ x.steps.log2 < 1137 := by
      rw [log2_lt_iff hne, ← twoTo_mul_unit 63]
      exact Nat.not_lt.mpr (Nat.le_of_lt h)
    unfold spare
    omega
  obtain ⟨k, hk⟩ := Nat.dvd_trans (twoTo_dvd hspare) x.fits.2
  rw [Nat.add_mul, ← gap_eq, hstart, ← Nat.mul_succ, hk]
  rw [hstart, hk] at h
  exact Nat.mul_le_mul_left _ (Nat.lt_of_mul_lt_mul_left h)

theorem roundSteps_past_signed {n : Nat} (hlow : twoTo 63 ≤ n) (hhigh : n < twoTo 64) :
    roundSteps (n * unit) 1 ≤ twoTo 63 * unit ↔ n ≤ twoTo 63 + 1024 := by
  have hne : n ≠ 0 := Nat.ne_of_gt (Nat.lt_of_lt_of_le (twoTo_pos 63) hlow)
  have hspare : spare (n * unit) = 1085 := by
    have hlt : n.log2 < 64 := (log2_lt_iff hne).mpr hhigh
    have hge : ¬ n.log2 < 63 := mt (log2_lt_iff hne).mp (Nat.not_lt.mpr hlow)
    rw [spare, log2_mul_unit hne]
    omega
  have hstart : twoTo 63 * unit = twoTo 52 * twoTo 1085 := by
    rw [twoTo_mul_unit, ← twoTo_add]
  have heven : twoTo 52 % 2 = 0 := by decide
  have hpower : 2 * twoTo 52 * 2048 = 2 * twoTo 63 := by decide
  rw [roundSteps_one, hspare, hstart, Nat.mul_le_mul_right_iff (twoTo_pos 1085),
    nearest_le_iff (twoTo_pos 1085), gap_eq, ← Nat.mul_assoc, ← Nat.mul_assoc,
    Nat.mul_lt_mul_right unit_pos, Nat.mul_left_inj (Nat.ne_of_gt unit_pos)]
  omega

theorem trunc_eq (x : Double) : x.trunc = x.signed.tdiv unit := by
  unfold trunc signed
  cases x.negative with
  | false => exact (Int.tdiv_eq_ediv_of_nonneg (Int.natCast_nonneg _)).symm
  | true =>
    dsimp only
    rw [if_pos rfl, if_pos rfl, Int.neg_tdiv, Int.tdiv_eq_ediv_of_nonneg (Int.natCast_nonneg _)]

theorem natAbs_trunc (x : Double) : x.trunc.natAbs = x.steps / unit := by
  have hwhole : ((x.steps : Int) / (unit : Int)).natAbs = x.steps / unit := by
    rw [← Int.natCast_ediv, Int.natAbs_natCast]
  unfold trunc
  cases x.negative with
  | false => exact hwhole
  | true => exact (Int.natAbs_neg _).trans hwhole

/-- There are no doubles whose whole part is a little past 2^63. -/
theorem trunc_cases (x : Double) :
    x.steps ≤ twoTo 63 * unit ∧ x.trunc.natAbs ≤ twoTo 63 ∨
      ¬ x.steps ≤ twoTo 63 * unit ∧ twoTo 63 + 2048 ≤ x.trunc.natAbs := by
  rw [natAbs_trunc]
  by_cases h : x.steps ≤ twoTo 63 * unit
  · exact .inl ⟨h, Nat.div_le_of_le_mul (Nat.mul_comm _ _ ▸ h)⟩
  · exact .inr ⟨h, (Nat.le_div_iff_mul_le unit_pos).mpr (steps_past_signed (Nat.not_le.mp h))⟩

end Double

theorem Whole.le_trunc_toDouble {w : Whole} (h : 9223372036854775808 ≤ w.val) :
    9223372036854775808 ≤ w.toDouble.trunc := by
  have hpower : Double.twoTo 63 = 9223372036854775808 := by decide
  have hexact : Double.roundSteps (Double.twoTo 63 * Double.unit) 1 =
      Double.twoTo 63 * Double.unit := by
    rw [Double.twoTo_mul_unit, Double.roundSteps_twoTo]
  have hsteps : Double.twoTo 63 * Double.unit ≤ w.toDouble.steps := by
    rw [← hexact]
    exact Double.roundSteps_mono (Nat.mul_le_mul_right _ (by omega))
  have hlarge : Double.twoTo 63 ≤ w.toDouble.trunc.natAbs := by
    rw [Double.natAbs_trunc]
    exact (Nat.le_div_iff_mul_le Double.unit_pos).mpr hsteps
  have hpositive : 0 ≤ w.toDouble.trunc := by
    have hsign : w.toDouble.negative = false := decide_eq_false (by omega)
    rw [Double.trunc, hsign]
    exact Int.ediv_nonneg (Int.natCast_nonneg _) (Int.natCast_nonneg _)
  omega

/-! ## Readings as integers -/

namespace Arguments

open Double

theorem wholePart?_unsigned {n : Number} (h : n.signed? = none) : wholePart? n =
    if n.toDouble.steps ≤ twoTo 63 * unit then
      some (max (-9223372036854775808) (min n.toDouble.trunc 9223372036854775807))
    else none := by
  simp only [wholePart?, h, Number.clampSigned]

theorem wholePart?_eq (n : Number) : wholePart? n =
    if Signed n.trunc then some n.trunc
    else if n.RoundsToEnd then some 9223372036854775807
    else none := by
  have hpower : twoTo 63 = 9223372036854775808 := by decide
  cases n with
  | double x =>
    have htrunc : (Number.double x).trunc = x.trunc := x.trunc_eq.symm
    have hend : (Number.double x).RoundsToEnd ↔
        9223372036854775808 ≤ x.trunc ∧ x.trunc ≤ 9223372036854775808 + 1024 := by
      rw [Number.roundsToEnd_iff, htrunc]
    rw [wholePart?_unsigned rfl, htrunc, Number.toDouble]
    rcases x.trunc_cases with ⟨hsteps, hsize⟩ | ⟨hsteps, hsize⟩
    · rw [if_pos hsteps]
      by_cases hsigned : x.trunc < 9223372036854775808
      · rw [if_pos (signed_iff.mpr (by omega))]
        congr 1
        omega
      · rw [if_neg (mt signed_iff.mp (by omega)), if_pos (hend.mpr (by omega))]
        congr 1
        omega
    · rw [if_neg hsteps, if_neg (mt signed_iff.mp (by omega)), if_neg (mt hend.mp (by omega))]
  | whole w =>
    have hlower := w.lower
    have hupper := w.upper
    have hend : (Number.whole w).RoundsToEnd ↔
        9223372036854775808 ≤ w.val ∧ w.val ≤ 9223372036854775808 + 1024 := Iff.rfl
    by_cases hsigned : w.val < 9223372036854775808
    · simp [wholePart?, Number.signed?, Whole.isSigned, Number.trunc, hsigned, signed_iff, hlower]
    · have hnone : (Number.whole w).signed? = none := by
        simp [Number.signed?, Whole.isSigned, hsigned]
      have htrunc := Whole.le_trunc_toDouble (Int.not_lt.mp hsigned)
      have hsteps : w.toDouble.steps ≤ twoTo 63 * unit ↔ w.val.natAbs ≤ twoTo 63 + 1024 :=
        roundSteps_past_signed (by omega) (show w.val.natAbs < 18446744073709551616 by omega)
      have hout : ¬ Signed w.val := mt signed_iff.mp (by omega)
      rw [wholePart?_unsigned hnone, Number.trunc, Number.toDouble, if_neg hout]
      by_cases hnear : w.val ≤ 9223372036854775808 + 1024
      · rw [if_pos (hsteps.mpr (by omega)), if_pos (hend.mpr (by omega))]
        congr 1
        omega
      · rw [if_neg (mt hsteps.mp (by omega)), if_neg (mt hend.mp (by omega))]

/-- A number is read as its whole part where the signed range holds that, and else refused. But from
2^63 up to halfway to the next double it is read as the end of the range. -/
theorem integer_eq (args : Arguments) (i : Nat) {n : Number} (h : args[i]? = some (.number n)) :
    args.integer i =
      if Signed n.trunc then .ok n.trunc
      else if n.RoundsToEnd then .ok 9223372036854775807
      else .error (.outOfRange n) := by
  rw [integer, get, h]
  dsimp only
  rw [wholePart?_eq]
  by_cases hsigned : Signed n.trunc
  · rw [if_pos hsigned, if_pos hsigned]
  · rw [if_neg hsigned, if_neg hsigned]
    by_cases hend : n.RoundsToEnd
    · rw [if_pos hend, if_pos hend]
    · rw [if_neg hend, if_neg hend]

def pastSigned : Number := .ofNat 9223372036854775808

theorem integer_pastSigned : [Value.number pastSigned][0]? = some (.number pastSigned) ∧
    integer [.number pastSigned] 0 = .ok 9223372036854775807 :=
  ⟨rfl, integer_eq [.number pastSigned] 0 rfl⟩

/-- Its whole part is out of range, and it is read as another number. -/
theorem pastSigned_changes : pastSigned.trunc = 9223372036854775808 ∧ ¬ Signed pastSigned.trunc ∧
    integer [.number pastSigned] 0 = .ok 9223372036854775807 := by
  have hread : wholePart? pastSigned = some 9223372036854775807 := by decide +kernel
  exact ⟨rfl, by decide, by simp [integer, get, hread]⟩

end Arguments

end Stencil

import Stencil.Number
/-!
# Rounding keeps the order

Of two whole numbers the greater one has no smaller double nearest to it.
-/

namespace Stencil

namespace Double

variable {m n d : Nat}

theorem div_le_nearest (n d : Nat) : n / d ≤ nearest n d := by
  unfold nearest
  dsimp only
  split
  · omega
  · split
    · omega
    · split <;> omega

theorem nearest_mono (d : Nat) (h : m ≤ n) : nearest m d ≤ nearest n d := by
  rcases Nat.lt_or_eq_of_le (Nat.div_le_div_right (c := d) h) with hlt | heq
  · calc nearest m d ≤ m / d + 1 := nearest_le m d
      _ ≤ n / d := hlt
      _ ≤ nearest n d := div_le_nearest n d
  · have hm := Nat.div_add_mod m d
    have hn := Nat.div_add_mod n d
    rw [heq] at hm
    have hmod : m % d ≤ n % d := by omega
    unfold nearest
    simp only [heq]
    repeat' split
    all_goals omega

theorem log2_mono (h : m ≤ n) : m.log2 ≤ n.log2 := by
  by_cases hm : m = 0
  · simp [hm]
  · have hn : n ≠ 0 := by omega
    exact (Nat.le_log2 hn).mpr (Nat.le_trans (Nat.log2_self_le hm) h)

theorem spare_mono (h : m ≤ n) : spare m ≤ spare n :=
  Nat.sub_le_sub_right (log2_mono h) 52

theorem roundSteps_one (n : Nat) :
    roundSteps n 1 = nearest n (twoTo (spare n)) * twoTo (spare n) := by
  simp [roundSteps]

theorem roundSteps_le (n : Nat) : roundSteps n 1 ≤ twoTo (53 + spare n) := by
  have h := nearest_spare_le n 1
  rw [Nat.div_one, Nat.one_mul] at h
  rw [roundSteps_one, twoTo_add]
  exact Nat.mul_le_mul_right _ h

theorem le_roundSteps (h : 0 < spare n) : twoTo (52 + spare n) ≤ roundSteps n 1 := by
  have hlog : 52 + spare n = n.log2 := by
    unfold spare at h ⊢
    omega
  have hpower : twoTo (52 + spare n) ≤ n := by
    rw [hlog]
    exact Nat.log2_self_le (by rintro rfl; simp [spare] at h)
  rw [twoTo_add] at hpower
  rw [roundSteps_one, twoTo_add]
  refine Nat.mul_le_mul_right _ (Nat.le_trans ?_ (div_le_nearest _ _))
  exact (Nat.le_div_iff_mul_le (twoTo_pos _)).mpr hpower

theorem roundSteps_mono (h : m ≤ n) : roundSteps m 1 ≤ roundSteps n 1 := by
  rcases Nat.lt_or_eq_of_le (spare_mono h) with hlt | heq
  -- where the greater one loses more digits, a power of two lies between the results
  · calc roundSteps m 1 ≤ twoTo (53 + spare m) := roundSteps_le m
      _ ≤ twoTo (52 + spare n) := twoTo_le (by omega)
      _ ≤ roundSteps n 1 := le_roundSteps (by omega)
  · rw [roundSteps_one, roundSteps_one, heq]
    exact Nat.mul_le_mul_right _ (nearest_mono _ h)

theorem nearest_of_dvd (hd : 0 < d) (h : d ∣ n) : nearest n d = n / d := by
  simp [nearest, Nat.mod_eq_zero_of_dvd h, hd]

theorem roundSteps_exact (h : twoTo (spare n) ∣ n) : roundSteps n 1 = n := by
  rw [roundSteps_one, nearest_of_dvd (twoTo_pos _) h, Nat.div_mul_cancel h]

end Double

namespace Whole

variable {m n : Whole}

theorem ext (h : m.val = n.val) : m = n := by
  cases m
  cases n
  simpa using h

theorem signed_toDouble (n : Whole) : n.toDouble.signed =
    if n.val < 0 then -(Double.roundSteps (n.val.natAbs * Double.unit) 1 : Int)
    else Double.roundSteps (n.val.natAbs * Double.unit) 1 := by
  simp [toDouble, Double.ofWhole, Double.signed]

theorem signed_exact (h : n.val.natAbs ≤ Double.twoTo 53) :
    n.toDouble.signed = n.val * Double.unit := by
  have hexact : Double.roundSteps (n.val.natAbs * Double.unit) 1 = n.val.natAbs * Double.unit :=
    Double.roundSteps_exact (Double.spare_dvd_of_le h)
  rw [signed_toDouble, hexact]
  split
  · rw [Int.natCast_mul, ← Int.neg_mul]
    congr 1
    omega
  · rw [Int.natCast_mul]
    congr 1
    omega

theorem signed_mono (h : m.val ≤ n.val) : m.toDouble.signed ≤ n.toDouble.signed := by
  have hround : ∀ a b : Int, a.natAbs ≤ b.natAbs →
      Double.roundSteps (a.natAbs * Double.unit) 1 ≤ Double.roundSteps (b.natAbs * Double.unit) 1 :=
    fun a b hab => Double.roundSteps_mono (Nat.mul_le_mul_right _ hab)
  have hup := hround m.val n.val
  have hdown := hround n.val m.val
  rw [signed_toDouble, signed_toDouble]
  split <;> split <;> omega

theorem compare_signed (m n : Whole) : compare m.val n.val =
    compare m.toDouble.signed n.toDouble.signed ∨ m.toDouble.signed = n.toDouble.signed := by
  have hup := @signed_mono m n
  have hdown := @signed_mono n m
  rcases Int.lt_trichotomy m.val n.val with hlt | heq | hgt
  · rw [Int.compare_eq_lt.mpr hlt, eq_comm, Int.compare_eq_lt]
    omega
  · simp [heq, toDouble]
  · rw [Int.compare_eq_gt.mpr hgt, eq_comm, Int.compare_eq_gt]
    omega

end Whole

end Stencil

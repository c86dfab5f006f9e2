import Stencil.Proofs.Order.Rounding
/-!
# The brink of the doubles

A result that rounds past the largest double is none. That begins halfway between the largest double and
the first magnitude past it, at `Double.brink`. For each operation this says exactly which arguments
have no double for a result.
-/

namespace Stencil.Double

variable {num den k n : Nat} {x y : Double}

/-! ## The unit -/

theorem unit_pos : 0 < unit := twoTo_pos 1074

theorem twoTo_mul_unit (n : Nat) : twoTo n * unit = twoTo (n + 1074) := (twoTo_add n 1074).symm

theorem log2_mul_unit {n : Nat} (h : n ≠ 0) : (n * unit).log2 = n.log2 + 1074 := by
  have hne : n * unit ≠ 0 := Nat.mul_ne_zero h (Nat.ne_of_gt unit_pos)
  have hlow : ¬ (n * unit).log2 < n.log2 + 1074 := by
    rw [log2_lt_iff hne, ← twoTo_mul_unit]
    exact Nat.not_lt.mpr (Nat.mul_le_mul_right _ (Nat.log2_self_le h))
  have hhigh : (n * unit).log2 < n.log2 + 1 + 1074 := by
    rw [log2_lt_iff hne, ← twoTo_mul_unit]
    exact Nat.mul_lt_mul_of_pos_right (lt_twoTo_log2 n) unit_pos
  omega

/-! ## Rounding up to a bound -/

theorem nearest_le_iff (hd : 0 < den) : nearest num den ≤ k ↔
    2 * num < (2 * k + 1) * den ∨ 2 * num = (2 * k + 1) * den ∧ k % 2 = 0 := by
  have hnum := Nat.div_add_mod num den
  have hrest := Nat.mod_lt num hd
  rw [Nat.add_mul, Nat.one_mul, Nat.mul_assoc, Nat.mul_comm k den]
  rcases Nat.lt_trichotomy (num / den) k with hlt | heq | hgt
  · have hstep : den * (num / den) + den ≤ den * k := by
      rw [← Nat.mul_succ]
      exact Nat.mul_le_mul_left den hlt
    have := nearest_le num den
    omega
  -- the quotient is the bound, so the remainder decides
  · rw [heq] at hnum
    unfold nearest
    dsimp only
    rw [heq]
    split
    · omega
    · split
      · omega
      · split <;> omega
  · have hstep : den * k + den ≤ den * (num / den) := by
      rw [← Nat.mul_succ]
      exact Nat.mul_le_mul_left den hgt
    have := div_le_nearest num den
    omega

theorem twoTo_le_roundSteps (h : num / den ≠ 0) : twoTo (num / den).log2 ≤ roundSteps num den := by
  have hspare : spare (num / den) ≤ (num / den).log2 := Nat.sub_le _ 52
  have hpower : twoTo (num / den).log2 ≤ num / den := Nat.log2_self_le h
  have hsplit : twoTo (num / den).log2 =
      twoTo ((num / den).log2 - spare (num / den)) * twoTo (spare (num / den)) := by
    rw [← twoTo_add, Nat.sub_add_cancel hspare]
  unfold roundSteps
  rw [hsplit] at hpower ⊢
  refine Nat.mul_le_mul_right _ (Nat.le_trans ?_ (div_le_nearest _ _))
  rw [← Nat.div_div_eq_div_mul]
  exact (Nat.le_div_iff_mul_le (twoTo_pos _)).mpr hpower

theorem roundSteps_le_twoTo (num den : Nat) : roundSteps num den ≤ twoTo (53 + spare (num / den)) := by
  rw [twoTo_add]
  exact Nat.mul_le_mul_right _ (nearest_spare_le num den)

theorem roundSteps_le_add (num den : Nat) :
    roundSteps num den ≤ num / den + twoTo (spare (num / den)) := by
  unfold roundSteps
  dsimp only
  generalize hs : twoTo (spare (num / den)) = s
  calc nearest num (den * s) * s ≤ (num / (den * s) + 1) * s := Nat.mul_le_mul_right _ (nearest_le _ _)
    _ = num / den / s * s + s := by rw [Nat.succ_mul, Nat.div_div_eq_div_mul]
    _ ≤ num / den + s := Nat.add_le_add_right (Nat.div_mul_le_self _ _) _

theorem twoTo_spare_le (h : spare n ≠ 0) : twoTo 52 * twoTo (spare n) ≤ n := by
  have hlog : 52 + spare n = n.log2 := by
    unfold spare at h ⊢
    omega
  rw [← twoTo_add, hlog]
  exact Nat.log2_self_le (by rintro rfl; simp [spare] at h)

theorem add_spare_le (hk : 53 ≤ k) (h : n < twoTo k) : 53 + spare n ≤ k := by
  by_cases hz : n = 0
  · simpa [hz, spare] using hk
  · have := (log2_lt_iff hz).mpr h
    unfold spare
    omega

theorem spare_eq_zero (h : n < twoTo 53) : spare n = 0 := by
  have := add_spare_le (Nat.le_refl 53) h
  omega

theorem roundSteps_le_of_le (hd : 0 < den) (hk : 53 ≤ k) (h : num ≤ twoTo k * den) :
    roundSteps num den ≤ twoTo k := by
  rcases Nat.lt_or_eq_of_le h with hlt | heq
  · have hquotient : num / den < twoTo k := (Nat.div_lt_iff_lt_mul hd).mpr hlt
    exact Nat.le_trans (roundSteps_le_twoTo num den) (twoTo_le (add_spare_le hk hquotient))
  -- a power of two stays as it is
  · have hspare : spare (num / den) = k - 52 := by
      rw [heq, Nat.mul_div_cancel _ hd, spare, log2_twoTo]
    have hsplit : twoTo k = twoTo 52 * twoTo (k - 52) := by
      rw [← twoTo_add]
      congr 1
      omega
    have hnum : num = den * twoTo (k - 52) * twoTo 52 := by
      rw [heq, hsplit, Nat.mul_comm, Nat.mul_comm (twoTo 52), Nat.mul_assoc]
    have hpos : 0 < den * twoTo (k - 52) := Nat.mul_pos hd (twoTo_pos _)
    refine Nat.le_of_eq ?_
    rw [roundSteps, hspare, nearest_of_dvd hpos ⟨_, hnum⟩, hnum, Nat.mul_div_cancel_left _ hpos, hsplit]

theorem roundSteps_twoTo (k : Nat) : roundSteps (twoTo k) 1 = twoTo k := by
  refine roundSteps_exact (twoTo_dvd ?_)
  rw [spare, log2_twoTo]
  exact Nat.sub_le k 52

theorem four_mul_roundSteps_le (h : 4 ≤ num / den) :
    4 * roundSteps num den ≤ 5 * (num / den) := by
  have hround := roundSteps_le_add num den
  by_cases hspare : spare (num / den) = 0
  · have hone : twoTo 0 = 1 := rfl
    rw [hspare, hone] at hround
    omega
  · have hlarge := twoTo_spare_le hspare
    have hfour : 4 * twoTo (spare (num / den)) ≤ twoTo 52 * twoTo (spare (num / den)) :=
      Nat.mul_le_mul_right _ (by decide)
    omega

theorem ofRatio?_of_fits (negative : Bool) (h : Fits n) :
    ofRatio? negative n 1 = some ⟨negative, n, h⟩ := by
  have hround : roundSteps n 1 = n := roundSteps_exact h.2
  have hlimit : roundSteps n 1 < limit := hround.symm ▸ h.1
  unfold ofRatio?
  rw [dif_pos hlimit]
  congr

theorem steps_of_ofRatio? {negative : Bool}
    (h : ofRatio? negative num den = some x) : x.steps = roundSteps num den := by
  unfold ofRatio? at h
  split at h
  · cases h
    rfl
  · cases h

/-! ## The brink -/

def brink : Nat := twoTo 2098 - twoTo 2044

theorem brink_add : brink + twoTo 2044 = limit := by
  have hle : twoTo 2044 ≤ twoTo 2098 := twoTo_le (by decide)
  unfold brink limit
  exact Nat.sub_add_cancel hle

theorem brink_eq : 2 * brink = (2 * (twoTo 53 - 1) + 1) * twoTo 2045 := by
  have hadd := brink_add
  have hsplit : limit = twoTo 54 * twoTo 2044 := twoTo_add 54 2044
  have hdouble : twoTo 2045 = 2 * twoTo 2044 := by rw [twoTo_succ, Nat.mul_comm]
  have hodd : 2 * (twoTo 53 - 1) + 1 + 1 = twoTo 54 := by decide
  have hprod : (2 * (twoTo 53 - 1) + 1) * twoTo 2044 + twoTo 2044 = limit := by
    rw [hsplit, ← hodd, Nat.succ_mul (2 * (twoTo 53 - 1) + 1)]
  rw [hdouble, Nat.mul_left_comm]
  omega

theorem three_quarters_le_brink : 3 * twoTo 2096 ≤ brink := by
  have hadd := brink_add
  have hlimit : limit = twoTo 2097 * 2 := twoTo_succ 2097
  have hhalf : twoTo 2097 = twoTo 2096 * 2 := twoTo_succ 2096
  have hle : twoTo 2044 ≤ twoTo 2096 := twoTo_le (by decide)
  omega

theorem twoTo_le_brink : twoTo 2097 ≤ brink := by
  have hquarters := three_quarters_le_brink
  have hhalf : twoTo 2097 = twoTo 2096 * 2 := twoTo_succ 2096
  omega

theorem roundSteps_lt_limit_iff (hd : 0 < den) : roundSteps num den < limit ↔ num < brink * den := by
  have hadd := brink_add
  have hpos := twoTo_pos 2044
  have hbrink : num < brink * den ↔ num / den < brink := (Nat.div_lt_iff_lt_mul hd).symm
  by_cases hsmall : num / den < twoTo 2097
  · have hspare : 53 + spare (num / den) ≤ 2097 := add_spare_le (by decide) hsmall
    have hround : roundSteps num den < limit :=
      calc roundSteps num den ≤ twoTo (53 + spare (num / den)) := roundSteps_le_twoTo num den
        _ < limit := twoTo_lt (by omega)
    have := twoTo_le_brink
    rw [hbrink]
    omega
  · have hpower := twoTo_pos 2097
    have hz : num / den ≠ 0 := by omega
    by_cases hlarge : num / den < limit
    -- in the highest binade the doubles are `twoTo 2045` apart, and the largest one is odd
    · have hlog : (num / den).log2 = 2097 := by
        have hlt : (num / den).log2 < 2098 := (log2_lt_iff hz).mpr hlarge
        have hge : ¬ (num / den).log2 < 2097 := mt (log2_lt_iff hz).mp hsmall
        omega
      have hodd : ¬ (twoTo 53 - 1) % 2 = 0 := by decide
      have hlimit : limit = twoTo 53 * twoTo 2045 := twoTo_add 53 2045
      have hden : 0 < den * twoTo 2045 := Nat.mul_pos hd (twoTo_pos 2045)
      have hmiddle : (2 * (twoTo 53 - 1) + 1) * (den * twoTo 2045) = 2 * (brink * den) := by
        rw [Nat.mul_left_comm, ← brink_eq, Nat.mul_comm den, Nat.mul_assoc]
      have hspare : spare (num / den) = 2045 := by
        unfold spare
        omega
      rw [roundSteps, hspare, hlimit, Nat.mul_lt_mul_right (twoTo_pos 2045),
        ← Nat.le_sub_one_iff_lt (twoTo_pos 53), nearest_le_iff hden, hmiddle]
      omega
    · have hround := twoTo_le_roundSteps hz
      have hlog : limit ≤ twoTo (num / den).log2 :=
        twoTo_le (Nat.not_lt.mp (mt (log2_lt_iff hz).mp hlarge))
      rw [hbrink]
      omega

theorem ofRatio?_eq_none_iff (negative : Bool) (hd : 0 < den) :
    ofRatio? negative num den = none ↔ brink * den ≤ num := by
  rw [← Nat.not_lt, ← roundSteps_lt_limit_iff hd]
  simp [ofRatio?]

theorem steps_lt_brink (x : Double) : x.steps < brink := by
  have hround : roundSteps x.steps 1 < limit := by
    rw [roundSteps_exact x.fits.2]
    exact x.fits.1
  have hlt := (roundSteps_lt_limit_iff Nat.one_pos).mp hround
  rwa [Nat.mul_one] at hlt

/-! ## Operations without a result -/

theorem add_eq_none_iff : x.add y = none ↔ brink ≤ (x.signed + y.signed).natAbs := by
  unfold add
  dsimp only
  split
  · next hzero =>
    have := Nat.lt_of_lt_of_le (twoTo_pos 2097) twoTo_le_brink
    simp [hzero]
    omega
  · rw [ofRatio?_eq_none_iff _ Nat.one_pos, Nat.mul_one]

theorem signed_neg (x : Double) : x.neg.signed = -x.signed := by
  unfold neg signed
  cases x.negative <;> simp

theorem sub_eq_none_iff : x.sub y = none ↔ brink ≤ (x.signed - y.signed).natAbs := by
  rw [sub, add_eq_none_iff, signed_neg, Int.sub_eq_add_neg]

theorem mul_eq_none_iff : x.mul y = none ↔ brink * unit ≤ x.steps * y.steps :=
  ofRatio?_eq_none_iff _ unit_pos

theorem isZero_iff : x.isZero = true ↔ x.steps = 0 := by simp [isZero]

theorem div_eq_none_iff : x.div y = none ↔ brink * y.steps ≤ x.steps * unit := by
  unfold div
  split
  · next hzero => simp [isZero_iff.mp hzero]
  · next hzero =>
    exact ofRatio?_eq_none_iff _ (Nat.pos_of_ne_zero fun h => hzero (isZero_iff.mpr h))

theorem rem_eq_none_iff : x.rem y = none ↔ y.isZero = true := by
  unfold rem
  split
  · next hzero => simp [hzero]
  · next hzero =>
    have hlt : x.steps % y.steps < brink :=
      Nat.lt_of_le_of_lt (Nat.mod_le _ _) x.steps_lt_brink
    rw [ofRatio?_eq_none_iff _ Nat.one_pos, Nat.mul_one]
    simp [hzero, Nat.not_le.mpr hlt]

end Stencil.Double

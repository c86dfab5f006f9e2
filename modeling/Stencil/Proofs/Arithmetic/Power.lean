import Mathlib.Analysis.SpecialFunctions.Log.Base
import Mathlib.Analysis.SpecialFunctions.Pow.Real
import Mathlib.Analysis.Complex.ExponentialBounds
import Stencil.Proofs.Arithmetic.Real
/-!
# How large a power is

The power is found from a logarithm in fixed point, of which every division cuts something off. Here
this is compared with the real power. A power that stays two binary digits below the end of the doubles
is never lost.
-/

namespace Stencil.Double

variable {num den n f found : Nat}

/-! ## Rounding down a logarithm -/

theorem cast_twoTo (n : Nat) : (twoTo n : ℝ) = 2 ^ n := Nat.cast_pow 2 n

theorem logb_twoTo (n : Nat) : Real.logb 2 (twoTo n) = n := by
  rw [cast_twoTo, Real.logb_pow, Real.logb_self_eq_one one_lt_two, mul_one]

theorem logb_one_add_le {t : ℝ} (h : 0 ≤ t) : Real.logb 2 (1 + t) ≤ 2 * t := by
  have hlog : Real.log (1 + t) ≤ t := by
    have := Real.log_le_sub_one_of_pos (x := 1 + t) (by linarith)
    linarith
  have htwo := Real.log_two_gt_d9
  rw [Real.logb, div_le_iff₀ (by linarith)]
  nlinarith

noncomputable def slack : ℝ := 2 / twoTo places

theorem logb_div_le (h : 0 < num / den) :
    Real.logb 2 (num / den : Nat) ≤ Real.logb 2 ((num : ℝ) / den) :=
  Real.logb_le_logb_of_le one_lt_two (Nat.cast_pos.mpr h) Nat.cast_div_le

theorem logb_div_le_add (hd : 0 < den) (h : twoTo places ≤ num / den) :
    Real.logb 2 ((num : ℝ) / den) ≤ Real.logb 2 (num / den : Nat) + slack := by
  have hplaces := cast_twoTo_pos places
  have hlarge : (twoTo places : ℝ) ≤ (num / den : Nat) := Nat.cast_le.mpr h
  have hnum : 0 < num := by
    by_contra hzero
    have := twoTo_pos places
    rw [Nat.eq_zero_of_not_pos hzero, Nat.zero_div] at h
    omega
  have hden : (0 : ℝ) < den := Nat.cast_pos.mpr hd
  have hup : (num : ℝ) / den ≤ (num / den : Nat) * (1 + 1 / twoTo places) := by
    have hfloor : (num : ℝ) ≤ ((num / den : Nat) + 1) * den := by
      exact_mod_cast Nat.le_of_lt (Nat.lt_mul_of_div_lt (Nat.lt_succ_self _) hd)
    have hshare : (1 : ℝ) ≤ (num / den : Nat) * (1 / twoTo places) := by
      rwa [mul_one_div, le_div_iff₀ hplaces, one_mul]
    calc (num : ℝ) / den ≤ (num / den : Nat) + 1 := (div_le_iff₀ hden).mpr hfloor
      _ ≤ (num / den : Nat) * (1 + 1 / twoTo places) := by linarith
  calc Real.logb 2 ((num : ℝ) / den)
      ≤ Real.logb 2 ((num / den : Nat) * (1 + 1 / twoTo places)) :=
        Real.logb_le_logb_of_le one_lt_two (div_pos (Nat.cast_pos.mpr hnum) hden) hup
    _ = Real.logb 2 (num / den : Nat) + Real.logb 2 (1 + 1 / twoTo places) :=
        Real.logb_mul (by linarith) (by positivity)
    _ ≤ Real.logb 2 (num / den : Nat) + slack := by
        have := logb_one_add_le (t := 1 / twoTo places) (by positivity)
        rw [mul_one_div] at this
        exact add_le_add_right this _

/-! ## The digits of a logarithm -/

noncomputable def lg (f : Nat) : ℝ := Real.logb 2 f - places

theorem lg_nonneg (h : twoTo places ≤ f) : 0 ≤ lg f := by
  have hlog : Real.logb 2 (twoTo places) ≤ Real.logb 2 f :=
    Real.logb_le_logb_of_le one_lt_two (cast_twoTo_pos places) (Nat.cast_le.mpr h)
  rw [logb_twoTo] at hlog
  exact sub_nonneg.mpr hlog

theorem lg_le_one (hpos : 0 < f) (h : f < twoTo (places + 1)) : lg f ≤ 1 := by
  have hlog : Real.logb 2 f ≤ Real.logb 2 (twoTo (places + 1)) :=
    Real.logb_le_logb_of_le one_lt_two (Nat.cast_pos.mpr hpos) (Nat.cast_le.mpr (Nat.le_of_lt h))
  rw [logb_twoTo] at hlog
  push_cast at hlog
  unfold lg
  linarith

theorem lg_square (bit : Nat) (h : twoTo places ≤ f * f / twoTo (places + bit)) (hf : 0 < f) :
    lg (f * f / twoTo (places + bit)) + bit ≤ 2 * lg f ∧
      2 * lg f ≤ lg (f * f / twoTo (places + bit)) + bit + slack := by
  have hne : (f : ℝ) ≠ 0 := Nat.cast_ne_zero.mpr (Nat.ne_of_gt hf)
  have hlog : Real.logb 2 ((f * f : Nat) / (twoTo (places + bit) : ℝ)) =
      2 * Real.logb 2 f - (places + bit) := by
    rw [Real.logb_div (by exact_mod_cast (Nat.mul_pos hf hf).ne') (cast_twoTo_pos _).ne', logb_twoTo,
      Nat.cast_mul, Real.logb_mul hne hne, Nat.cast_add, two_mul]
  have hdown := logb_div_le (Nat.lt_of_lt_of_le (twoTo_pos places) h)
  have hup := logb_div_le_add (twoTo_pos _) h
  rw [hlog] at hdown hup
  unfold lg
  constructor <;> linarith

theorem logDigits_step (hlow : twoTo places ≤ f) (hhigh : f < twoTo (places + 1)) :
    ∃ bit g, twoTo places ≤ g ∧ g < twoTo (places + 1) ∧
      (∀ n found, logDigits (n + 1) f found = logDigits n g (2 * found + bit)) ∧
      lg g + bit ≤ 2 * lg f ∧ 2 * lg f ≤ lg g + bit + slack := by
  have hf : 0 < f := Nat.lt_of_lt_of_le (twoTo_pos places) hlow
  have hsquare : twoTo places ≤ f * f / twoTo places :=
    (Nat.le_div_iff_mul_le (twoTo_pos places)).mpr (Nat.mul_le_mul hlow hlow)
  by_cases hsmall : f * f / twoTo places < twoTo (places + 1)
  · refine ⟨0, _, hsquare, hsmall, fun n found => ?_, lg_square 0 hsquare hf⟩
    simp only [logDigits, if_pos hsmall, Nat.add_zero]
  · have hhalf : f * f / twoTo places / 2 = f * f / twoTo (places + 1) := by
      rw [Nat.div_div_eq_div_mul, twoTo_succ]
    have hlarge : twoTo places ≤ f * f / twoTo (places + 1) := by
      rw [← hhalf]
      have := twoTo_succ places
      omega
    refine ⟨1, _, hlarge, ?_, fun n found => ?_, lg_square 1 hlarge hf⟩
    · refine (Nat.div_lt_iff_lt_mul (twoTo_pos _)).mpr ?_
      exact Nat.mul_lt_mul_of_lt_of_le hhigh (Nat.le_of_lt hhigh) (twoTo_pos _)
    · simp only [logDigits, if_neg hsmall, hhalf]

/-- The digits found are those of the logarithm, cut off. Each square before may have been cut off,
too. -/
theorem logDigits_bounds (n found : Nat) (hlow : twoTo places ≤ f) (hhigh : f < twoTo (places + 1)) :
    (logDigits n f found : ℝ) ≤ twoTo n * (found + lg f) ∧
      twoTo n * (found + lg f) ≤ logDigits n f found + 1 + twoTo n * slack := by
  induction n generalizing f found with
  | zero =>
    have hnonneg := lg_nonneg hlow
    have hone := lg_le_one (Nat.lt_of_lt_of_le (twoTo_pos places) hlow) hhigh
    have hslack : 0 ≤ slack := div_nonneg zero_le_two (cast_twoTo_pos places).le
    have hzero : (twoTo 0 : ℝ) = 1 := by simp [twoTo]
    simp only [logDigits, hzero, one_mul]
    constructor <;> linarith
  | succ n ih =>
    obtain ⟨bit, g, hglow, hghigh, hstep, hdown, hup⟩ := logDigits_step hlow hhigh
    obtain ⟨hle, hge⟩ := ih (2 * found + bit) hglow hghigh
    have hpos := cast_twoTo_pos n
    have hsucc : (twoTo (n + 1) : ℝ) = twoTo n * 2 := by exact_mod_cast twoTo_succ n
    rw [hstep, hsucc]
    push_cast at hle hge
    constructor
    · nlinarith [mul_le_mul_of_nonneg_left hdown hpos.le]
    · nlinarith [mul_le_mul_of_nonneg_left hup hpos.le]

/-! ## The logarithm of a magnitude -/

variable {steps : Nat}

theorem log2Fixed_bounds (h : steps ≠ 0) :
    (log2Fixed steps : ℝ) ≤ twoTo places * Real.logb 2 (steps / unit) ∧
      twoTo places * Real.logb 2 (steps / unit) ≤ log2Fixed steps + 5 := by
  have hplaces := cast_twoTo_pos places
  have hne : (steps : ℝ) ≠ 0 := Nat.cast_ne_zero.mpr h
  have hlow : twoTo places ≤ steps * twoTo places / twoTo steps.log2 := by
    rw [Nat.le_div_iff_mul_le (twoTo_pos _), Nat.mul_comm steps]
    exact Nat.mul_le_mul_left _ (Nat.log2_self_le h)
  have hhigh : steps * twoTo places / twoTo steps.log2 < twoTo (places + 1) := by
    rw [Nat.div_lt_iff_lt_mul (twoTo_pos _), ← twoTo_add, Nat.add_right_comm, Nat.add_comm places,
      Nat.add_right_comm, twoTo_add]
    exact Nat.mul_lt_mul_of_pos_right (lt_twoTo_log2 steps) (twoTo_pos places)
  have hlog : Real.logb 2 ((steps * twoTo places : Nat) / (twoTo steps.log2 : ℝ)) =
      Real.logb 2 steps + places - steps.log2 := by
    rw [Real.logb_div (by exact_mod_cast (Nat.mul_pos (Nat.pos_of_ne_zero h) (twoTo_pos _)).ne')
      (cast_twoTo_pos _).ne', logb_twoTo, Nat.cast_mul, Real.logb_mul hne hplaces.ne', logb_twoTo]
  have hunit : Real.logb 2 (steps / unit) = Real.logb 2 steps - 1074 := by
    unfold unit
    rw [Real.logb_div hne (cast_twoTo_pos _).ne', logb_twoTo]
    norm_cast
  have hdown := logb_div_le (Nat.lt_of_lt_of_le (twoTo_pos places) hlow)
  have hup := logb_div_le_add (twoTo_pos _) hlow
  obtain ⟨hle, hge⟩ := logDigits_bounds places 0 hlow hhigh
  have hslack : twoTo places * slack = 2 := mul_div_cancel₀ 2 hplaces.ne'
  rw [hlog] at hdown hup
  rw [hunit]
  unfold log2Fixed lg at *
  push_cast at hle hge ⊢
  constructor
  · nlinarith [mul_le_mul_of_nonneg_left hdown hplaces.le]
  · nlinarith [mul_le_mul_of_nonneg_left hup hplaces.le]

theorem log2Fixed_nonneg (h : unit ≤ steps) : 0 ≤ log2Fixed steps := by
  have hne : steps ≠ 0 := Nat.ne_of_gt (Nat.lt_of_lt_of_le unit_pos h)
  have htop : ¬ steps.log2 < 1074 := mt (log2_lt_iff hne).mp (Nat.not_lt.mpr h)
  unfold log2Fixed
  exact Int.add_nonneg (Int.mul_nonneg (by omega) (Int.natCast_nonneg _)) (Int.natCast_nonneg _)

/-! ## The exponential -/

theorem expTerms_mono {z z' : Nat} (hz : z ≤ z') (n k : Nat) {term term' : Nat}
    (hterm : term ≤ term') : expTerms z n k term ≤ expTerms z' n k term' := by
  induction n generalizing k term term' with
  | zero => exact Nat.le_refl 0
  | succ n ih =>
    refine Nat.add_le_add hterm (ih (k + 1) ?_)
    exact Nat.div_le_div_right (Nat.div_le_div_right (Nat.mul_le_mul hterm hz))

theorem exp2Fixed_le {z : Nat} (h : z ≤ twoTo places) : exp2Fixed z ≤ twoTo (places + 1) :=
  calc exp2Fixed z ≤ exp2Fixed (twoTo places) :=
        expTerms_mono (Nat.div_le_div_right (Nat.mul_le_mul_right _ h)) 72 0 (Nat.le_refl _)
    _ ≤ twoTo (places + 1) := by decide +kernel

theorem snap_le (n : Nat) : snap n ≤ n + twoTo (places - 200) := by
  unfold snap
  dsimp only
  repeat' split
  all_goals omega

theorem exp2_ne_none {exponent : Int} (negative : Bool) (h : exponent < 1023 * twoTo places) :
    exp2 negative exponent ≠ none := by
  have hplaces : (0 : Int) < twoTo places := Int.natCast_pos.mpr (twoTo_pos places)
  have hwhole : exponent / twoTo places < 1023 := Int.ediv_lt_of_lt_mul hplaces h
  have hrest : (exponent % twoTo places).toNat ≤ twoTo places := by
    have := Int.emod_lt_of_pos exponent hplaces
    omega
  unfold exp2
  dsimp only
  rw [if_neg (by omega)]
  split
  · exact Option.some_ne_none _
  · have hmantissa := snap_le (exp2Fixed (exponent % twoTo places).toNat)
    have hexp := exp2Fixed_le hrest
    have hsmall : 2 * (twoTo (places + 1) + twoTo (places - 200)) + 1 < 3 * twoTo 257 := by
      decide +kernel
    have hpower : twoTo (exponent / twoTo places + 1100).toNat ≤ twoTo 2122 := twoTo_le (by omega)
    have hhalf : (if exponent / twoTo places < -1022 then 0 else 1) ≤ 1 := by split <;> omega
    have hnum : 2 * snap (exp2Fixed (exponent % twoTo places).toNat) +
        (if exponent / twoTo places < -1022 then 0 else 1) < 3 * twoTo 257 := by omega
    rw [Ne, ofRatio?_eq_none_iff _ (twoTo_pos _), Nat.not_le]
    calc _ < 3 * twoTo 257 * twoTo (exponent / twoTo places + 1100).toNat :=
          Nat.mul_lt_mul_of_pos_right hnum (twoTo_pos _)
      _ ≤ 3 * twoTo 257 * twoTo 2122 := Nat.mul_le_mul_left _ hpower
      _ = 3 * twoTo 2096 * twoTo (places + 27) := by
          rw [Nat.mul_assoc, ← twoTo_add, Nat.mul_assoc, ← twoTo_add, places]
      _ ≤ brink * twoTo (places + 27) := Nat.mul_le_mul_right _ three_quarters_le_brink

/-! ## Powers -/

variable {x y : Double}

theorem add_le_unit (h : x.steps < unit) : x.steps + twoTo 1021 ≤ unit := by
  have hsplit : unit = twoTo 53 * twoTo 1021 := twoTo_add 53 1021
  by_cases hlow : x.steps < twoTo 1073
  · have hle : twoTo 1021 ≤ twoTo 1073 := twoTo_le (by decide)
    have hdouble : unit = twoTo 1073 * 2 := twoTo_succ 1073
    omega
  · have hne : x.steps ≠ 0 := by
      have := twoTo_pos 1073
      omega
    have hspare : 1021 ≤ spare x.steps := by
      have := mt (log2_lt_iff hne).mp hlow
      unfold spare
      omega
    obtain ⟨k, hk⟩ := Nat.dvd_trans (twoTo_dvd hspare) x.fits.2
    rw [hk, Nat.mul_comm _ k] at h ⊢
    rw [hsplit] at h ⊢
    rw [← Nat.succ_mul]
    exact Nat.mul_le_mul_right _ (Nat.lt_of_mul_lt_mul_right h)

theorem le_neg_logb (hne : x.steps ≠ 0) (h : x.steps < unit) :
    1 ≤ twoTo 53 * -Real.logb 2 (x.steps / unit) := by
  have hunit := cast_unit_pos
  have hpos : (0 : ℝ) < x.steps / unit := div_pos (Nat.cast_pos.mpr (Nat.pos_of_ne_zero hne)) hunit
  have hgap : 1 ≤ twoTo 53 * (1 - (x.steps : ℝ) / unit) := by
    have hle : twoTo 53 * x.steps + unit ≤ twoTo 53 * unit :=
      calc twoTo 53 * x.steps + unit = twoTo 53 * (x.steps + twoTo 1021) := by
            rw [Nat.mul_add, ← twoTo_add, unit]
        _ ≤ twoTo 53 * unit := Nat.mul_le_mul_left _ (add_le_unit h)
    rw [one_sub_div hunit.ne', ← mul_div_assoc, le_div_iff₀ hunit, one_mul, mul_sub, le_sub_iff_add_le']
    exact_mod_cast hle
  have hlog : 1 - (x.steps : ℝ) / unit ≤ -Real.logb 2 (x.steps / unit) := by
    have hle : (x.steps : ℝ) / unit ≤ 1 := (div_le_one hunit).mpr (Nat.cast_le.mpr (Nat.le_of_lt h))
    generalize (x.steps : ℝ) / unit = t at *
    have hnatural := Real.log_le_sub_one_of_pos hpos
    have htwo : Real.log 2 ≤ 1 := Real.log_two_lt_d9.le.trans (by norm_num)
    rw [Real.logb, ← neg_div, le_div_iff₀ (Real.log_pos one_lt_two)]
    have := mul_le_mul_of_nonneg_left htwo (sub_nonneg.mpr hle)
    linarith only [this, hnatural]
  exact hgap.trans (mul_le_mul_of_nonneg_left hlog (cast_twoTo_pos 53).le)

theorem mul_log2Fixed_lt {v : ℝ} (hne : x.steps ≠ 0)
    (h : v * Real.logb 2 (x.steps / unit) < 1022) :
    v * log2Fixed x.steps < 1023 * twoTo places := by
  obtain ⟨hle, hge⟩ := log2Fixed_bounds hne
  have hgap := le_neg_logb hne
  have hone := @log2Fixed_nonneg x.steps
  have hplaces := cast_twoTo_pos places
  generalize Real.logb 2 (x.steps / unit) = log at *
  have hscaled : twoTo places * (v * log) < twoTo places * 1022 := mul_lt_mul_of_pos_left h hplaces
  rcases le_or_gt 0 v with hv | hv
  · have := mul_le_mul_of_nonneg_left hle hv
    linarith
  · by_cases hlarge : unit ≤ x.steps
    · have hfixed : (0 : ℝ) ≤ log2Fixed x.steps := Int.cast_nonneg (hone hlarge)
      have := mul_nonneg (neg_nonneg.mpr hv.le) hfixed
      linarith
    -- the exponent is small enough for its share of the cuts to stay below one
    · have hsmall : -v ≤ 1022 * twoTo 53 := by
        have := mul_le_mul_of_nonneg_left (hgap (Nat.not_le.mp hlarge)) (neg_nonneg.mpr hv.le)
        have := mul_lt_mul_of_pos_left h (cast_twoTo_pos 53)
        linarith
      have hcut : 5 * (1022 * twoTo 53 : ℝ) ≤ twoTo places := by
        exact_mod_cast (by decide +kernel : 5 * (1022 * twoTo 53) ≤ twoTo places)
      have := mul_le_mul_of_nonneg_left hge (neg_nonneg.mpr hv.le)
      linarith

theorem pow_ne_none (hzero : x.isZero = true → y.negative = true → y.isZero = true)
    (hsign : x.negative = true → x.isZero = true ∨ y.isWhole = true)
    (hsmall : |x.value| ^ y.value < twoTo 1022) : x.pow y ≠ none := by
  unfold pow
  dsimp only
  split
  · exact Option.some_ne_none _
  · next hy =>
    split
    · next hx =>
      rw [if_neg fun hneg => hy (hzero hx hneg)]
      exact Option.some_ne_none _
    · next hx =>
      have hne : x.steps ≠ 0 := fun h => hx (isZero_iff.mpr h)
      have habs : 0 < |x.value| := by
        rw [abs_value]
        exact div_pos (Nat.cast_pos.mpr (Nat.pos_of_ne_zero hne)) cast_unit_pos
      rw [if_neg]
      · split
        · exact Option.some_ne_none _
        · refine exp2_ne_none _ (Int.ediv_lt_of_lt_mul (Int.natCast_pos.mpr unit_pos) ?_)
          have hlog : y.value * Real.logb 2 (x.steps / unit) < 1022 := by
            rw [← abs_value, ← Real.logb_rpow_eq_mul_logb_of_pos habs]
            have := Real.logb_lt_logb one_lt_two (Real.rpow_pos_of_pos habs _) hsmall
            rw [logb_twoTo] at this
            exact_mod_cast this
          have hmul := mul_log2Fixed_lt hne hlog
          rw [value, div_mul_eq_mul_div, div_lt_iff₀ cast_unit_pos] at hmul
          exact_mod_cast hmul
      · simp only [Bool.and_eq_true, Bool.not_eq_true', not_and, Bool.not_eq_false]
        exact fun hneg => (hsign hneg).resolve_left hx

end Stencil.Double

import Mathlib.Tactic.Ring
import Stencil.Builtin
import Stencil.Proofs.Arithmetic.Real
/-!
# Rounding to places

Rounding scales by a power of ten, rounds to a whole number and scales back. The powers of ten are
there for all the places that it uses, and the rounding in the middle is exact. What is left to go wrong
is one product, if there are places after the point, and one quotient, if there are none.
-/

namespace Stencil.Double

variable {x y : Double}

/-! ## The rounding in the middle -/

def halfUp (steps : Nat) : Nat := (2 * steps + unit) / (2 * unit)

theorem halfUp_of_whole (k : Nat) : halfUp (unit * k) = k := by
  have hpos := unit_pos
  have hhalf : unit / (2 * unit) = 0 := Nat.div_eq_of_lt (by omega)
  rw [halfUp, ← Nat.mul_assoc, Nat.add_comm, Nat.add_mul_div_left _ _ (by omega), hhalf, Nat.zero_add]

theorem halfUp_le (steps : Nat) : 2 * (halfUp steps * unit) ≤ 2 * steps + unit := by
  rw [Nat.mul_left_comm]
  exact Nat.div_mul_le_self _ _

theorem steps_lt_of_not_whole (h : ¬ unit ∣ x.steps) : x.steps < twoTo 53 * unit := by
  by_contra hlarge
  have hne : x.steps ≠ 0 := fun hzero => h (hzero ▸ Nat.dvd_zero unit)
  have hspare : 1074 ≤ spare x.steps := by
    have := mt (log2_lt_iff hne).mp ((twoTo_mul_unit 53) ▸ hlarge)
    unfold spare
    omega
  exact h (Nat.dvd_trans (twoTo_dvd hspare) x.fits.2)

theorem fits_halfUp (x : Double) : Fits (halfUp x.steps * unit) := by
  by_cases hwhole : unit ∣ x.steps
  · obtain ⟨k, hk⟩ := hwhole
    rw [hk, halfUp_of_whole, Nat.mul_comm, ← hk]
    exact x.fits
  · have hsmall : halfUp x.steps ≤ twoTo 53 := by
      have hlt := steps_lt_of_not_whole hwhole
      have hpos := unit_pos
      refine Nat.lt_succ_iff.mp ((Nat.div_lt_iff_lt_mul (by omega)).mpr ?_)
      rw [Nat.succ_mul (twoTo 53), Nat.mul_left_comm (twoTo 53)]
      omega
    refine ⟨?_, spare_dvd_of_le hsmall⟩
    calc halfUp x.steps * unit ≤ twoTo 53 * unit := Nat.mul_le_mul_right _ hsmall
      _ = twoTo 1127 := twoTo_mul_unit 53
      _ < limit := twoTo_lt (by decide)

theorem roundHalfAway_eq (x : Double) :
    ∃ r, x.roundHalfAway = some r ∧ r.steps = halfUp x.steps * unit :=
  ⟨_, ofRatio?_of_fits x.negative (fits_halfUp x), rfl⟩

/-! ## Powers of ten -/

theorem one_le_abs_value_iff : 1 ≤ |x.value| ↔ unit ≤ x.steps := by
  rw [abs_value, one_le_div cast_unit_pos, Nat.cast_le]

theorem mul_of_one_le (hx : 1 ≤ |x.value|) (hy : 1 ≤ |y.value|) (h : |x.value| * |y.value| < top) :
    ∃ z, x.mul y = some z ∧ 1 ≤ |z.value| ∧ |z.value| ≤ |x.value| * |y.value| * share := by
  have hsome : x.mul y ≠ none := by
    rwa [Ne, mul_eq_none_iff_top, abs_mul, not_le]
  obtain ⟨z, hz⟩ := Option.ne_none_iff_exists'.mp hsome
  have hsteps : z.steps = roundSteps (x.steps * y.steps) unit := steps_of_ofRatio? hz
  have hlarge : unit ≤ x.steps * y.steps / unit :=
    (Nat.le_div_iff_mul_le unit_pos).mpr
      (Nat.mul_le_mul (one_le_abs_value_iff.mp hx) (one_le_abs_value_iff.mp hy))
  have hne : x.steps * y.steps / unit ≠ 0 := Nat.ne_of_gt (Nat.lt_of_lt_of_le unit_pos hlarge)
  have hlog : 1074 ≤ (x.steps * y.steps / unit).log2 :=
    Nat.not_lt.mp (mt (log2_lt_iff hne).mp (Nat.not_lt.mpr hlarge))
  refine ⟨z, hz, ?_, ?_⟩
  · rw [one_le_abs_value_iff, hsteps]
    exact (twoTo_le hlog).trans (twoTo_le_roundSteps hne)
  · have hspare : spare (x.steps * y.steps / unit) ≠ 0 := by
      unfold spare
      omega
    have hround := roundSteps_le_share hspare
    rw [abs_value, abs_value, abs_value, hsteps, div_mul_div_comm, div_le_iff₀ cast_unit_pos]
    rw [Nat.cast_mul] at hround
    calc (roundSteps (x.steps * y.steps) unit : ℝ) ≤ x.steps * y.steps / unit * share := hround
      _ = x.steps * y.steps / (unit * unit) * share * unit := by
        rw [mul_right_comm _ share, div_mul_eq_mul_div _ _ (unit : ℝ),
          mul_div_mul_right _ _ cast_unit_pos.ne']

noncomputable def tenfold : ℝ := 10 * share

theorem one_le_tenfold : 1 ≤ tenfold := by
  have := one_le_share
  unfold tenfold
  linarith

theorem share_nonneg : 0 ≤ share := zero_le_one.trans one_le_share

theorem squarings_succ (fuel n : Nat) (a r : Double) : squarings (fuel + 1) n a r =
    (if n % 2 = 1 then r.mul a else some r).bind fun r' =>
      if n / 2 = 0 then some r' else (a.mul a).bind fun a' => squarings fuel (n / 2) a' r' := by
  rw [squarings]
  split <;> rfl

theorem mul_of_le_tenfold {k m : Nat} (hx : 1 ≤ |x.value|) (hxle : |x.value| ≤ tenfold ^ m)
    (hy : 1 ≤ |y.value|) (hyle : |y.value| * share ≤ tenfold ^ k) (htop : tenfold ^ (m + k) < top) :
    ∃ z, x.mul y = some z ∧ 1 ≤ |z.value| ∧ |z.value| ≤ tenfold ^ (m + k) := by
  have hle : |x.value| * |y.value| * share ≤ tenfold ^ (m + k) := by
    rw [mul_assoc, pow_add]
    exact mul_le_mul hxle hyle (mul_nonneg (abs_nonneg _) share_nonneg)
      (pow_nonneg (zero_le_one.trans one_le_tenfold) m)
  have hlt : |x.value| * |y.value| < top :=
    calc |x.value| * |y.value| ≤ |x.value| * |y.value| * share :=
          le_mul_of_one_le_right (mul_nonneg (abs_nonneg _) (abs_nonneg _)) one_le_share
      _ ≤ tenfold ^ (m + k) := hle
      _ < top := htop
  obtain ⟨z, hz, hone, hzle⟩ := mul_of_one_le hx hy hlt
  exact ⟨z, hz, hone, hzle.trans hle⟩

theorem squarings_bounds {fuel n k m : Nat} {a r : Double} (hfuel : n < fuel)
    (ha : 1 ≤ |a.value|) (hale : |a.value| * share ≤ tenfold ^ k)
    (hr : 1 ≤ |r.value|) (hrle : |r.value| ≤ tenfold ^ m) (htop : tenfold ^ (m + k * n) < top) :
    ∃ z, squarings fuel n a r = some z ∧ 1 ≤ |z.value| ∧ |z.value| ≤ tenfold ^ (m + k * n) := by
  induction fuel generalizing n k m a r with
  | zero => omega
  | succ fuel ih =>
    have hbelow : ∀ e, e ≤ m + k * n → tenfold ^ e < top := fun e he =>
      (pow_le_pow_right₀ one_le_tenfold he).trans_lt htop
    have hsplit : m + k * (n % 2) + 2 * k * (n / 2) = m + k * n := by
      conv_rhs => rw [← Nat.div_add_mod n 2]
      ring
    have hdigit : ∃ r', (if n % 2 = 1 then r.mul a else some r) = some r' ∧ 1 ≤ |r'.value| ∧
        |r'.value| ≤ tenfold ^ (m + k * (n % 2)) := by
      by_cases hodd : n % 2 = 1
      · rw [if_pos hodd, hodd, Nat.mul_one]
        refine mul_of_le_tenfold hr hrle ha hale (hbelow _ ?_)
        exact Nat.add_le_add_left (Nat.le_mul_of_pos_right k (by omega)) m
      · rw [if_neg hodd, (by omega : n % 2 = 0), Nat.mul_zero]
        exact ⟨r, rfl, hr, hrle⟩
    obtain ⟨r', hr', hr'one, hr'le⟩ := hdigit
    rw [squarings_succ, hr', Option.bind_some]
    split
    · next hlast =>
      rw [← hsplit, hlast, Nat.mul_zero, Nat.add_zero]
      exact ⟨r', rfl, hr'one, hr'le⟩
    · next hmore =>
      have hsquare : ∃ a', a.mul a = some a' ∧ 1 ≤ |a'.value| ∧
          |a'.value| * share ≤ tenfold ^ (2 * k) := by
        have hle : |a.value| * |a.value| * share * share ≤ tenfold ^ (2 * k) :=
          calc |a.value| * |a.value| * share * share = |a.value| * share * (|a.value| * share) := by ring
            _ ≤ tenfold ^ k * tenfold ^ k :=
              mul_self_le_mul_self (mul_nonneg (abs_nonneg _) share_nonneg) hale
            _ = tenfold ^ (2 * k) := by rw [← pow_add, two_mul]
        have hexponent : 2 * k ≤ m + k * n := by
          rw [Nat.mul_comm 2]
          exact (Nat.mul_le_mul_left k (show 2 ≤ n by omega)).trans (Nat.le_add_left _ m)
        have hsquare : 0 ≤ |a.value| * |a.value| := mul_self_nonneg _
        have hlt : |a.value| * |a.value| < top :=
          calc |a.value| * |a.value| ≤ |a.value| * |a.value| * share :=
                le_mul_of_one_le_right hsquare one_le_share
            _ ≤ |a.value| * |a.value| * share * share :=
                le_mul_of_one_le_right (mul_nonneg hsquare share_nonneg) one_le_share
            _ ≤ tenfold ^ (2 * k) := hle
            _ < top := hbelow _ hexponent
        obtain ⟨z, hz, hone, hzle⟩ := mul_of_one_le ha ha hlt
        exact ⟨z, hz, hone, (mul_le_mul_of_nonneg_right hzle share_nonneg).trans hle⟩
      obtain ⟨a', ha', ha'one, ha'le⟩ := hsquare
      rw [ha', Option.bind_some, ← hsplit]
      exact ih (show n / 2 < fuel by omega) ha'one ha'le hr'one hr'le (by rwa [hsplit])

theorem tenfold_pow_lt_top {n : Nat} (h : n ≤ 308) : tenfold ^ n < top := by
  have hclosed : 3 * 10 ^ 308 * unit < 2 * brink := by decide +kernel
  have hshare := share_pow_le (n := 308) (by decide)
  generalize 308 = e at h hclosed hshare
  calc tenfold ^ n ≤ tenfold ^ e := pow_le_pow_right₀ one_le_tenfold h
    _ = 10 ^ e * share ^ e := mul_pow _ _ _
    _ ≤ 10 ^ e * (3 / 2) := mul_le_mul_of_nonneg_left hshare (pow_nonneg (by norm_num) _)
    _ < top := by
      rw [top, lt_div_iff₀ cast_unit_pos]
      have hcast : (3 * 10 ^ e * unit : ℝ) < 2 * brink := by exact_mod_cast hclosed
      linarith only [hcast]

theorem abs_value_ten : |ten.value| = 10 := by
  have hsteps : ten.steps = 10 * unit := by decide +kernel
  rw [abs_value, hsteps, Nat.cast_mul, mul_div_cancel_right₀ _ cast_unit_pos.ne']
  norm_num

theorem abs_value_one : |(one false).value| = 1 := by
  have hsteps : (one false).steps = unit := by decide +kernel
  rw [abs_value, hsteps, div_self cast_unit_pos.ne']

theorem tenToThe_eq (n : Int) : tenToThe n =
    (squarings (n.natAbs + 1) n.natAbs ten (one false)).bind fun f =>
      if n < 0 then (one false).div f else some f := rfl

theorem squarings_ten {n : Nat} (h : n ≤ 308) :
    ∃ f, squarings (n + 1) n ten (one false) = some f ∧ 1 ≤ |f.value| ∧ |f.value| ≤ tenfold ^ n := by
  have htop : tenfold ^ (0 + 1 * n) < top := by
    rw [Nat.zero_add, Nat.one_mul]
    exact tenfold_pow_lt_top h
  have hten : 1 ≤ |ten.value| := by
    rw [abs_value_ten]
    norm_num
  have hfactor : |ten.value| * share ≤ tenfold ^ 1 := by
    rw [abs_value_ten, pow_one, tenfold]
  obtain ⟨f, hf, hone, hle⟩ := squarings_bounds (Nat.lt_succ_self n) hten hfactor abs_value_one.ge
    (pow_zero tenfold ▸ abs_value_one.le) htop
  rw [Nat.zero_add, Nat.one_mul] at hle
  exact ⟨f, hf, hone, hle⟩

theorem tenToThe_of_nonneg {n : Int} (hn : 0 ≤ n) (h : n ≤ 308) :
    ∃ f, tenToThe n = some f ∧ 1 ≤ |f.value| := by
  obtain ⟨f, hf, hone, -⟩ := squarings_ten (n := n.natAbs) (by omega)
  rw [tenToThe_eq, hf, Option.bind_some, if_neg (by omega)]
  exact ⟨f, rfl, hone⟩

theorem one_div_of_one_le {f : Double} (h : 1 ≤ |f.value|) :
    ∃ g, (one false).div f = some g ∧ 0 < |g.value| ∧ |g.value| ≤ 1 := by
  have hsteps : (one false).steps = unit := by decide +kernel
  have hlarge : unit ≤ f.steps := one_le_abs_value_iff.mp h
  have hf : ¬ f.isZero = true := mt isZero_iff.mp (Nat.ne_of_gt (unit_pos.trans_le hlarge))
  have hsome : (one false).div f ≠ none := by
    rw [Ne, div_eq_none_iff_top hf, abs_div, abs_value_one, not_le]
    calc 1 / |f.value| ≤ 1 := div_le_one_of_le₀ h (abs_nonneg _)
      _ = |(one false).value| := abs_value_one.symm
      _ < top := abs_value_lt_top _
  obtain ⟨g, hg⟩ := Option.ne_none_iff_exists'.mp hsome
  have hgsteps : g.steps = roundSteps (unit * unit) f.steps := by
    rw [div, if_neg hf, hsteps] at hg
    exact steps_of_ofRatio? hg
  have hquotient : unit * unit / f.steps ≠ 0 := by
    have hle : f.steps ≤ unit * unit :=
      calc f.steps ≤ limit := Nat.le_of_lt f.fits.1
        _ ≤ twoTo (1074 + 1074) := by
          unfold limit
          exact twoTo_le (by decide)
        _ = unit * unit := by rw [twoTo_add, unit]
    exact Nat.ne_of_gt (Nat.div_pos hle (unit_pos.trans_le hlarge))
  refine ⟨g, hg, ?_, ?_⟩
  · rw [abs_value, hgsteps]
    exact div_pos (Nat.cast_pos.mpr ((twoTo_pos _).trans_le (twoTo_le_roundSteps hquotient))) cast_unit_pos
  · rw [abs_value, div_le_one cast_unit_pos, Nat.cast_le, hgsteps]
    exact roundSteps_le_of_le (unit_pos.trans_le hlarge) (by decide) (Nat.mul_le_mul_left unit hlarge)

theorem tenToThe_of_nonpos {n : Int} (hn : n ≤ 0) (h : -308 ≤ n) :
    ∃ f, tenToThe n = some f ∧ 0 < |f.value| ∧ |f.value| ≤ 1 := by
  obtain ⟨f, hf, hone, hle⟩ := squarings_ten (n := n.natAbs) (by omega)
  rw [tenToThe_eq, hf, Option.bind_some]
  by_cases hneg : n < 0
  · rw [if_pos hneg]
    exact one_div_of_one_le hone
  · have hzero : n.natAbs = 0 := by omega
    rw [hzero, pow_zero] at hle
    exact ⟨f, if_neg hneg, zero_lt_one.trans_le hone, hle⟩

/-! ## Scaling up and down -/

theorem halfUp_scaled_le {f y : Double} (h : x.mul f = some y) (hy : halfUp y.steps ≠ 0) :
    halfUp y.steps * unit * unit ≤ 3 * (x.steps * f.steps) := by
  have hround := roundSteps_le_add (x.steps * f.steps) unit
  have hfour := @four_mul_roundSteps_le (x.steps * f.steps) unit
  have hsteps : y.steps = roundSteps (x.steps * f.steps) unit := steps_of_ofRatio? h
  have hwhole : unit ≤ halfUp y.steps * unit := Nat.le_mul_of_pos_left _ (Nat.pos_of_ne_zero hy)
  have hhalf := halfUp_le y.steps
  have hunit : 8 < unit := by decide +kernel
  have hquotient : x.steps * f.steps / unit * unit ≤ x.steps * f.steps := Nat.div_mul_le_self _ _
  rw [← hsteps] at hround hfour
  generalize x.steps * f.steps / unit = quotient at *
  generalize halfUp y.steps * unit = whole at *
  have hlarge : 4 ≤ quotient := by
    by_contra hsmall
    have hspare : spare quotient = 0 :=
      spare_eq_zero (Nat.lt_trans (Nat.not_le.mp hsmall) (by decide))
    have hone : twoTo 0 = 1 := rfl
    rw [hspare, hone] at hround
    omega
  have hthree : whole ≤ 3 * quotient := by
    have := hfour hlarge
    omega
  calc whole * unit ≤ 3 * quotient * unit := Nat.mul_le_mul_right _ hthree
    _ = 3 * (quotient * unit) := Nat.mul_assoc _ _ _
    _ ≤ 3 * (x.steps * f.steps) := Nat.mul_le_mul_left 3 hquotient

end Stencil.Double

namespace Stencil.Builtin

open Double

variable {x : Double} {places : Int}

theorem scaledRound_eq {f : Double} (hf : tenToThe places = some f) : scaledRound x places =
    (x.mul f).bind fun y => y.roundHalfAway.bind fun r => r.div f := by
  unfold scaledRound
  rw [hf, Option.bind_eq_bind, Option.bind_some]

theorem scaledRound_of_pos (hlow : 0 < places) (hhigh : places ≤ 308) :
    ∃ f, tenToThe places = some f ∧ (scaledRound x places = none ↔ top ≤ |x.value * f.value|) := by
  obtain ⟨f, hf, hone⟩ := tenToThe_of_nonneg (Int.le_of_lt hlow) hhigh
  refine ⟨f, hf, ?_⟩
  rw [← mul_eq_none_iff_top, scaledRound_eq hf]
  cases hmul : x.mul f with
  | none => exact iff_of_true rfl rfl
  | some y =>
    obtain ⟨r, hr, -⟩ := roundHalfAway_eq y
    rw [Option.bind_some, hr, Option.bind_some]
    refine iff_of_false ?_ (Option.some_ne_none y)
    have hsteps := one_le_abs_value_iff.mp hone
    rw [div_eq_none_iff, Nat.not_le]
    calc r.steps * unit ≤ r.steps * f.steps := Nat.mul_le_mul_left _ hsteps
      _ < brink * f.steps := Nat.mul_lt_mul_of_pos_right r.steps_lt_brink (unit_pos.trans_le hsteps)

theorem scaledRound_of_nonpos (hlow : -308 ≤ places) (hhigh : places ≤ 0)
    (h : scaledRound x places = none) : twoTo 1022 ≤ |x.value| := by
  obtain ⟨f, hf, hpos, hone⟩ := tenToThe_of_nonpos hhigh hlow
  have hfpos : 0 < f.steps := by
    refine Nat.pos_of_ne_zero fun hzero => ?_
    rw [abs_value, hzero, Nat.cast_zero, zero_div] at hpos
    exact lt_irrefl 0 hpos
  have hfle : f.steps ≤ unit := by
    rw [abs_value, div_le_one cast_unit_pos, Nat.cast_le] at hone
    exact hone
  rw [scaledRound_eq hf] at h
  cases hmul : x.mul f with
  | none =>
    rw [mul_eq_none_iff] at hmul
    have : x.steps * f.steps < brink * unit :=
      Nat.mul_lt_mul_of_lt_of_le x.steps_lt_brink hfle unit_pos
    exact absurd hmul (Nat.not_le.mpr this)
  | some y =>
    obtain ⟨r, hr, hsteps⟩ := roundHalfAway_eq y
    rw [hmul, Option.bind_some, hr, Option.bind_some, div_eq_none_iff, hsteps] at h
    have hnonzero : halfUp y.steps ≠ 0 := by
      intro hzero
      have hbrink := (twoTo_pos 2097).trans_le twoTo_le_brink
      rw [hzero, Nat.zero_mul, Nat.zero_mul] at h
      exact Nat.not_le.mpr (Nat.mul_pos hbrink hfpos) h
    have hthree : brink ≤ 3 * x.steps := by
      refine Nat.le_of_mul_le_mul_right ?_ hfpos
      rw [Nat.mul_assoc 3]
      exact h.trans (halfUp_scaled_le hmul hnonzero)
    have hsteps : twoTo 2096 ≤ x.steps :=
      Nat.le_of_mul_le_mul_left (three_quarters_le_brink.trans hthree) (by decide)
    rw [abs_value, le_div_iff₀ cast_unit_pos]
    rw [← Nat.cast_mul, twoTo_mul_unit]
    exact Nat.cast_le.mpr hsteps

end Stencil.Builtin

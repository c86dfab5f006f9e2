import Stencil.Proofs.Arithmetic.Kept
import Stencil.Proofs.Arithmetic.Numeral
/-!
# Conversion to integers

Integers of numbers are exact in the signed range. Texts and roundings go by the nearest double, so they
give back the integers that are doubles.
-/

namespace Stencil

open Double

/-- The number has no more than 53 binary digits up to its trailing zeros, so a double has its value. -/
def Short (n : Int) : Prop := twoTo (spare n.natAbs) ∣ n.natAbs

instance : DecidablePred Short := fun n =>
  inferInstanceAs (Decidable (twoTo (spare n.natAbs) ∣ n.natAbs))

namespace Double

variable {n c d : Nat}

/-! ## Whole numbers as doubles -/

theorem spare_mul_unit (h : spare n ≠ 0) : spare (n * unit) = spare n + 1074 := by
  have hne : n ≠ 0 := by
    rintro rfl
    exact h rfl
  unfold spare at h ⊢
  rw [log2_mul_unit hne]
  omega

theorem roundSteps_unit_iff : roundSteps (n * unit) 1 / unit = n ↔ twoTo (spare n) ∣ n := by
  have hunit : roundSteps (n * unit) 1 / unit * unit = roundSteps (n * unit) 1 :=
    Nat.div_mul_cancel (unit_dvd_roundSteps n)
  by_cases hspare : spare n = 0
  · have hsmall : n < twoTo 53 := by
      by_cases hn : n = 0
      · rw [hn]
        exact twoTo_pos 53
      · refine (log2_lt_iff hn).mp ?_
        unfold spare at hspare
        omega
    have hexact : roundSteps (n * unit) 1 = n * unit :=
      roundSteps_exact (spare_dvd_of_le (Nat.le_of_lt hsmall))
    rw [hexact, Nat.mul_div_cancel _ unit_pos, hspare]
    exact iff_of_true rfl (Nat.one_dvd n)
  · have hdvd : twoTo (spare (n * unit)) ∣ n * unit ↔ twoTo (spare n) ∣ n := by
      rw [spare_mul_unit hspare, twoTo_add]
      exact Nat.mul_dvd_mul_iff_right unit_pos
    rw [← hdvd]
    constructor
    · intro h
      rw [h, roundSteps_one] at hunit
      exact ⟨_, hunit.trans (Nat.mul_comm _ _)⟩
    · intro h
      rw [roundSteps_exact h, Nat.mul_div_cancel _ unit_pos]

theorem ofRatio?_mul (negative : Bool) {steps : Nat} (h : Fits steps) (hd : 0 < d) :
    ofRatio? negative (steps * d) d = some ⟨negative, steps, h⟩ := by
  have hround : roundSteps (steps * d) d = steps := by
    have hdvd : d * twoTo (spare steps) ∣ d * steps := Nat.mul_dvd_mul_left d h.2
    rw [roundSteps, Nat.mul_div_cancel _ hd, Nat.mul_comm steps,
      nearest_of_dvd (Nat.mul_pos hd (twoTo_pos _)) hdvd, Nat.mul_div_mul_left _ _ hd,
      Nat.div_mul_cancel h.2]
  have hlimit : roundSteps (steps * d) d < limit := hround.symm ▸ h.1
  rw [ofRatio?, dif_pos hlimit]
  simp [hround]

theorem spare_mul_unit_le (hc : c < twoTo 53) (d : Nat) : spare (c * unit / d) ≤ 1074 := by
  have hquotient : c * unit / d < twoTo (53 + 1074) :=
    calc c * unit / d ≤ c * unit := Nat.div_le_self _ _
      _ < twoTo 53 * unit := Nat.mul_lt_mul_of_pos_right hc unit_pos
      _ = twoTo (53 + 1074) := twoTo_mul_unit 53
  have hspare := add_spare_le (by decide) hquotient
  omega

theorem nearest_mul {g : Nat} (hg : 0 < g) (n d : Nat) : nearest (n * g) (d * g) = nearest n d := by
  have hlow : 2 * (n % d * g) < d * g ↔ 2 * (n % d) < d := by
    rw [← Nat.mul_assoc, Nat.mul_lt_mul_right hg]
  have hhigh : d * g < 2 * (n % d * g) ↔ d < 2 * (n % d) := by
    rw [← Nat.mul_assoc, Nat.mul_lt_mul_right hg]
  unfold nearest
  rw [Nat.mul_div_mul_right _ _ hg, Nat.mul_mod_mul_right]
  simp only [hlow, hhigh]

theorem nearest_div {u : Nat} (hd : 0 < d) (h : d < 2 * u) : nearest (c * u) d / u = c / d := by
  have hfloor : c / d * d ≤ c := Nat.div_mul_le_self c d
  have hnext : c + 1 ≤ (c / d + 1) * d := (Nat.div_lt_iff_lt_mul hd).mp (Nat.lt_succ_self (c / d))
  apply Nat.div_eq_of_lt_le
  · refine Nat.le_trans ((Nat.le_div_iff_mul_le hd).mpr ?_) (div_le_nearest _ _)
    rw [Nat.mul_right_comm]
    exact Nat.mul_le_mul_right u hfloor
  · have hpos : 0 < (c / d + 1) * u := Nat.mul_pos (Nat.succ_pos _) (by omega)
    have hupper : (c + 1) * u ≤ (c / d + 1) * u * d := by
      rw [Nat.mul_right_comm]
      exact Nat.mul_le_mul_right u hnext
    generalize (c / d + 1) * u = k at hpos hupper ⊢
    have hodd : (2 * (k - 1) + 1) * d + d = 2 * (k * d) := by
      rw [← Nat.succ_mul, ← Nat.mul_assoc]
      congr 1
      omega
    have hbelow : nearest (c * u) d ≤ k - 1 := by
      rw [nearest_le_iff hd]
      rw [Nat.succ_mul] at hupper
      omega
    omega

theorem lt_gap (hc : c < twoTo 53) (h : spare (c * unit / d) ≠ 0) :
    d < 2 * twoTo (1074 - spare (c * unit / d)) := by
  have hsplit : twoTo (1074 - spare (c * unit / d)) * twoTo (spare (c * unit / d)) = unit := by
    rw [← twoTo_add, Nat.sub_add_cancel (spare_mul_unit_le hc d), unit]
  have hlarge := twoTo_spare_le h
  generalize twoTo (1074 - spare (c * unit / d)) = u at hsplit ⊢
  generalize twoTo (spare (c * unit / d)) = g at hsplit hlarge
  have hscaled : twoTo 52 * (d * g) < twoTo 52 * (2 * u * g) :=
    calc twoTo 52 * (d * g) = d * (twoTo 52 * g) := Nat.mul_left_comm _ _ _
      _ ≤ d * (c * unit / d) := Nat.mul_le_mul_left d hlarge
      _ ≤ c * unit := Nat.mul_div_le _ _
      _ < twoTo 53 * unit := Nat.mul_lt_mul_of_pos_right hc unit_pos
      _ = twoTo 52 * (2 * u * g) := by rw [← hsplit, twoTo_succ, Nat.mul_assoc, Nat.mul_assoc 2]
  exact Nat.lt_of_mul_lt_mul_right (Nat.lt_of_mul_lt_mul_left hscaled)

theorem roundSteps_div_unit (hc : c < twoTo 53) (hd : 0 < d) :
    roundSteps (c * unit) d / unit = c / d := by
  have hsplit : twoTo (1074 - spare (c * unit / d)) * twoTo (spare (c * unit / d)) = unit := by
    rw [← twoTo_add, Nat.sub_add_cancel (spare_mul_unit_le hc d), unit]
  by_cases hgap : d < 2 * twoTo (1074 - spare (c * unit / d))
  · unfold roundSteps
    dsimp only
    generalize spare (c * unit / d) = s at hsplit hgap ⊢
    rw [← hsplit, ← Nat.mul_assoc, nearest_mul (twoTo_pos s), Nat.mul_div_mul_right _ _ (twoTo_pos s),
      nearest_div hd hgap]
  -- otherwise both the quotient and its double lie below one
  · have hspare : spare (c * unit / d) = 0 := by
      by_contra hne
      exact hgap (lt_gap hc hne)
    have hround := roundSteps_le_twoTo (c * unit) d
    have hunit : twoTo 53 < unit := twoTo_lt (by decide)
    have hhalf : twoTo (1074 - 0) = unit := rfl
    rw [hspare] at hround hgap
    rw [hhalf] at hgap
    rw [Nat.div_eq_of_lt (Nat.lt_of_le_of_lt hround hunit), Nat.div_eq_of_lt (by omega)]

end Double

namespace Whole

variable {w : Whole}

theorem trunc_toDouble (w : Whole) : w.toDouble.trunc =
    if w.val < 0 then -((roundSteps (w.val.natAbs * unit) 1 / unit : Nat) : Int)
    else (roundSteps (w.val.natAbs * unit) 1 / unit : Nat) := by
  have hsign : w.toDouble.negative = decide (w.val < 0) := rfl
  rw [Double.trunc, hsign, steps_toDouble, ← Int.natCast_ediv]
  simp only [decide_eq_true_eq]

theorem trunc_toDouble_iff (w : Whole) : w.toDouble.trunc = w.val ↔ Short w.val := by
  have hexact := @roundSteps_unit_iff w.val.natAbs
  rw [trunc_toDouble, Short, ← hexact]
  split <;> omega

theorem natAbs_trunc_toDouble (hw : Signed w.val) : w.toDouble.trunc.natAbs ≤ twoTo 63 := by
  have hsteps := steps_toDouble_le (natAbs_le hw)
  rw [natAbs_trunc]
  exact Nat.div_le_of_le_mul (by rwa [Nat.mul_comm, twoTo_mul_unit])

/-- Of the numbers that are not short only the last one comes back from its double, as the end of the range
that this is past. -/
theorem clampSigned_trunc_iff (hw : Signed w.val) :
    Number.clampSigned w.toDouble.trunc = w ↔ Short w.val ∨ w.val = 9223372036854775807 := by
  have hpower : twoTo 63 = 9223372036854775808 := by decide
  have hbound := natAbs_trunc_toDouble hw
  have htrunc := trunc_toDouble w
  have hrange := Stencil.signed_iff.mp hw
  rw [← trunc_toDouble_iff]
  constructor
  · intro h
    have hval := congrArg Whole.val h
    simp only [Number.clampSigned] at hval
    split at htrunc <;> omega
  · rintro (h | h)
    · apply ext
      simp only [Number.clampSigned]
      omega
    · have hlast : roundSteps (9223372036854775807 * unit) 1 / unit = 9223372036854775808 := by
        decide +kernel
      have habs : w.val.natAbs = 9223372036854775807 := by omega
      rw [habs, hlast, if_neg (by omega)] at htrunc
      apply ext
      simp only [Number.clampSigned]
      omega

end Whole

namespace Builtin

/-! ## Rounding without places -/

theorem scaledRound_whole {y : Double} (hy : unit ∣ y.steps) : scaledRound y 0 = some y := by
  have hscale : tenToThe 0 = some (one false) := by decide +kernel
  have hone : (one false).steps = unit := by decide +kernel
  have hsign : (y.negative != (one false).negative) = y.negative := by cases y.negative <;> rfl
  have hmul : y.mul (one false) = some y := by
    rw [mul, hsign, hone, ofRatio?_mul _ y.fits unit_pos]
  have hround : y.roundHalfAway = some y := by
    obtain ⟨k, hk⟩ := hy
    have hhalf : halfUp y.steps * unit = y.steps := by rw [hk, halfUp_of_whole, Nat.mul_comm]
    show ofRatio? y.negative (halfUp y.steps * unit) 1 = some y
    rw [hhalf, ofRatio?_of_fits y.negative y.fits]
  have hdiv : y.div (one false) = some y := by
    have hzero : (one false).isZero = false := by decide +kernel
    rw [div, hzero, if_neg Bool.false_ne_true, hsign, hone, ofRatio?_mul _ y.fits unit_pos]
  rw [scaledRound_eq hscale, hmul, Option.bind_some, hround, Option.bind_some, hdiv]

variable {sorting : Sorting}

theorem apply_round_zero (w : Whole) : apply sorting .round [.number (.whole w), .number (.ofNat 0)] = .ok
    (if w.toDouble.steps < twoTo 63 * unit then .ofSigned w.toDouble.trunc
      else .number (.double w.toDouble)) := by
  have hplaces : Arguments.wholePart? (.ofNat 0) = some 0 := by decide +kernel
  have hmax : Max.max (0 : Int) (-308) = 0 := by decide
  have hround := scaledRound_whole (y := w.toDouble) (unit_dvd_roundSteps w.val.natAbs)
  rw [apply_round, hplaces]
  dsimp only
  rw [Number.toDouble, roundTo, if_neg (Int.lt_irrefl 0), hmax, hround]

theorem apply_round_iff {w : Whole} (hw : Signed w.val) :
    apply sorting .round [.number (.whole w), .number (.ofNat 0)] = .ok (.number (.whole w)) ↔
      Short w.val ∧ w.val ≠ -9223372036854775808 := by
  have hpower : twoTo 63 = 9223372036854775808 := by decide
  have hrange := signed_iff.mp hw
  have hbelow : w.toDouble.steps < twoTo 63 * unit ↔ w.toDouble.trunc.natAbs < twoTo 63 := by
    rw [natAbs_trunc, Nat.div_lt_iff_lt_mul unit_pos]
  rw [apply_round_zero, ← Whole.trunc_toDouble_iff]
  by_cases hsteps : w.toDouble.steps < twoTo 63 * unit
  · have hlt := hbelow.mp hsteps
    rw [if_pos hsteps]
    constructor
    · intro h
      have hsame : Number.clampSigned w.toDouble.trunc = w :=
        Number.whole.inj (Value.number.inj (Except.ok.inj h))
      have hval := congrArg Whole.val hsame
      simp only [Number.clampSigned] at hval
      omega
    · rintro ⟨htrunc, -⟩
      have hsame : Number.clampSigned w.toDouble.trunc = w := by
        apply Whole.ext
        simp only [Number.clampSigned]
        omega
      rw [Value.ofSigned, hsame]
  · have hge := mt hbelow.mpr hsteps
    rw [if_neg hsteps]
    refine iff_of_false ?_ ?_
    · rintro ⟨⟩
    · rintro ⟨htrunc, hne⟩
      omega

/-! ## Integers of values -/

theorem apply_int_eq (v : Value) : apply sorting .int [v] = (toInt v).mapError .raised := rfl

/-- Integers are kept, and doubles cut off to their whole parts. Texts stand for the double nearest to the
numeral in front of them. What is past the range counts as an end of it. So a text gives back the numbers
that are short, and rounding does, but for the least one. -/
theorem apply_int {w : Whole} (hw : Signed w.val) (x : Double) {lead plus rest tail : List Char}
    {n : Numeral} (hlead : ∀ c ∈ lead, Blank.isAny c) (hplus : plus = [] ∨ plus = ['+'] ∧ 0 ≤ w.val)
    (hrest : Numeral.NoDigit rest ∧ ∀ tail, rest = '.' :: tail → Numeral.NoDigit tail)
    (htail : n.Ends tail) :
    apply sorting .int [.number (.whole w)] = .ok (.number (.whole w)) ∧
    (apply sorting .int [.string (String.ofList (lead ++ (plus ++ Number.wholeText w.val ++ rest)))] =
        .ok (.number (.whole w)) ↔ Short w.val ∨ w.val = 9223372036854775807) ∧
    (apply sorting .round [.number (.whole w), .number (.ofNat 0)] = .ok (.number (.whole w)) ↔
      Short w.val ∧ w.val ≠ -9223372036854775808) ∧
    apply sorting .int [.number (.double x)] =
      .ok (.number (.whole (Number.clampSigned (x.signed.tdiv unit)))) ∧
    apply sorting .int [.string (String.ofList (lead ++ (n.chars ++ tail)))] =
      .ok (.number (.whole (Number.clampSigned n.rounded))) ∧
    (n.coefficient < twoTo 53 → n.rounded = n.trunc) := by
  simp only [apply_int_eq]
  have hnumeral := Numeral.toInt_text hlead htail
  refine ⟨rfl, ?text, apply_round_iff hw, ?double, by rw [hnumeral]; rfl, ?exact⟩
  case text =>
    have hsign : plus = [] ∨ plus = ['+'] := hplus.imp_right And.left
    have hends : (Numeral.ofWhole w.val hsign).Ends rest := ⟨hrest.1, fun _ => hrest.2⟩
    have htext := Numeral.toInt_text hlead hends
    rw [Numeral.chars_ofWhole hsign (hplus.imp_right And.right), Numeral.rounded_ofWhole] at htext
    rw [htext, ← Whole.clampSigned_trunc_iff hw]
    constructor
    · intro h
      exact Number.whole.inj (Value.number.inj (Except.ok.inj h))
    · intro h
      rw [h]
      rfl
  case double =>
    rw [toInt, Value.ofSigned, trunc_eq]
    rfl
  case exact =>
    intro h
    have hscale : 0 < n.scale := Nat.pow_pos (by decide)
    rw [Numeral.rounded, Numeral.trunc, roundSteps_div_unit h hscale]

def quarterNumeral : Numeral :=
  ⟨['-'], ['1'], ['2', '5'], .inr (.inl rfl), List.all_eq_true.mp rfl, List.all_eq_true.mp rfl,
    by decide⟩

/-- An even number past all odd ones that have doubles is read behind a blank and a plus, and with a unit
behind it. -/
theorem apply_int_even :
    apply .stable .int [.number (.whole (Number.clampSigned 9007199254740994))] =
      .ok (.number (.whole (Number.clampSigned 9007199254740994))) ∧
    apply .stable .int [.string " +9007199254740994px"] =
      .ok (.number (.whole (Number.clampSigned 9007199254740994))) ∧
    apply .stable .round [.number (.whole (Number.clampSigned 9007199254740994)), .number (.ofNat 0)] =
      .ok (.number (.whole (Number.clampSigned 9007199254740994))) ∧
    apply .stable .int [.number (.double (one true))] = .ok (.number (.whole (Number.clampSigned (-1)))) ∧
    apply .stable .int [.string " -1.25s"] = .ok (.number (.whole (Number.clampSigned (-1)))) := by
  have hsigned : Signed (Number.clampSigned 9007199254740994).val := by decide +kernel
  have hlead : ∀ c ∈ [' '], Blank.isAny c := List.all_eq_true.mp rfl
  have hplus : ['+'] = [] ∨ ['+'] = ['+'] ∧ 0 ≤ (Number.clampSigned 9007199254740994).val :=
    .inr ⟨rfl, by decide +kernel⟩
  have hrest : Numeral.NoDigit ['p', 'x'] ∧
      ∀ tail, ['p', 'x'] = '.' :: tail → Numeral.NoDigit tail :=
    ⟨by rintro c ⟨⟩; rfl, nofun⟩
  have htail : quarterNumeral.Ends ['s'] := ⟨by rintro c ⟨⟩; rfl, nofun⟩
  have hshort : Short (Number.clampSigned 9007199254740994).val := by decide +kernel
  have hleast : (Number.clampSigned 9007199254740994).val ≠ -9223372036854775808 := by decide +kernel
  have hminus : Number.clampSigned ((one true).signed.tdiv unit) = Number.clampSigned (-1) := by
    decide +kernel
  have hquarter : Number.clampSigned quarterNumeral.trunc = Number.clampSigned (-1) := by decide +kernel
  have hcoefficient : quarterNumeral.coefficient < twoTo 53 := by decide +kernel
  obtain ⟨hwhole, htext, hround, hdouble, hnumeral, hexact⟩ :=
    apply_int hsigned (one true) hlead hplus hrest htail
  rw [hexact hcoefficient, hquarter] at hnumeral
  rw [hminus] at hdouble
  exact ⟨hwhole, htext.mpr (.inl hshort), hround.mpr ⟨hshort, hleast⟩, hdouble, hnumeral⟩

theorem apply_int_chars (n : Numeral) : apply sorting .int [.string (String.ofList n.chars)] =
    .ok (.number (.whole (Number.clampSigned n.rounded))) := by
  have hnone : ∀ c ∈ ([] : List Char), Blank.isAny c := fun _ hc => absurd hc List.not_mem_nil
  have htext := Numeral.toInt_text hnone n.ends_nil
  rw [List.nil_append, List.append_nil] at htext
  rw [apply_int_eq, htext]
  rfl

def unevenNumeral : Numeral := Numeral.ofWhole 9007199254740993 (.inl (Eq.refl []))

def ninesNumeral : Numeral :=
  ⟨[], ['0'], List.replicate 20 '9', .inl rfl, List.all_eq_true.mp rfl, List.all_eq_true.mp rfl,
    by decide⟩

/-- Texts are rounded before they are cut off, the least integer becomes a double, and a double past the
range becomes an end of it. -/
theorem integers_lost :
    apply .stable .int [.string "9007199254740993"] =
      .ok (.number (.whole (Number.clampSigned 9007199254740992))) ∧
    apply .stable .int [.string "0.99999999999999999999"] = .ok (.number (.whole (Number.clampSigned 1))) ∧
    apply .stable .round [.number (.whole (Number.clampSigned (-9223372036854775808))), .number (.ofNat 0)] =
      .ok (.number (.double (Number.clampSigned (-9223372036854775808)).toDouble)) ∧
    apply .stable .int [.number (.double highestPower)] =
      .ok (.number (.whole (Number.clampSigned 9223372036854775807))) := by
  have huneven : Number.clampSigned unevenNumeral.rounded = Number.clampSigned 9007199254740992 := by
    decide +kernel
  have hnines : Number.clampSigned ninesNumeral.rounded = Number.clampSigned 1 := by decide +kernel
  have hleast : ¬ (Number.clampSigned (-9223372036854775808)).toDouble.steps < twoTo 63 * unit := by
    decide +kernel
  have hpast : Number.clampSigned highestPower.trunc = Number.clampSigned 9223372036854775807 := by
    decide +kernel
  refine ⟨?uneven, ?nines, ?least, ?past⟩
  case uneven =>
    rw [← huneven]
    exact apply_int_chars unevenNumeral
  case nines =>
    rw [← hnines]
    exact apply_int_chars ninesNumeral
  case least => rw [apply_round_zero, if_neg hleast]
  case past =>
    rw [apply_int_eq, toInt, Value.ofSigned, hpast]
    rfl

end Builtin

end Stencil

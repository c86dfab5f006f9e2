import Stencil.Proofs.Arithmetic.Integer
import Stencil.Proofs.Arithmetic.Power
import Stencil.Value.Arithmetic
/-!
# Arithmetic on the signed range

The operators other than the quotient give the exact whole number where the signed range holds it, and
a double elsewhere. Three cases stand out. The remainder of the least number by minus one and powers
with an exponent from 2^32 on are doubles even where the result is small. A power past the largest
double is null.
-/

namespace Stencil

/-! ## Whole numbers as doubles -/

namespace Double

theorem unit_dvd_roundSteps (n : Nat) : unit ∣ roundSteps (n * unit) 1 := by
  by_cases hn : n < twoTo 53
  · have hexact : roundSteps (n * unit) 1 = n * unit :=
      roundSteps_exact (spare_dvd_of_le (Nat.le_of_lt hn))
    rw [hexact]
    exact Nat.dvd_mul_left unit n
  · have hne : n ≠ 0 := by
      rintro rfl
      exact hn (twoTo_pos 53)
    have hspare : 1074 ≤ spare (n * unit) := by
      have := mt (log2_lt_iff hne).mp hn
      rw [spare, log2_mul_unit hne]
      omega
    rw [roundSteps_one]
    exact Nat.dvd_trans (twoTo_dvd hspare) (Nat.dvd_mul_left _ _)

end Double

namespace Whole

open Double

variable {w : Whole}

theorem steps_toDouble (w : Whole) : w.toDouble.steps = roundSteps (w.val.natAbs * unit) 1 := rfl

theorem isWhole_toDouble (w : Whole) : w.toDouble.isWhole = true :=
  beq_iff_eq.mpr (Nat.mod_eq_zero_of_dvd (unit_dvd_roundSteps w.val.natAbs))

theorem steps_toDouble_le {k : Nat} (h : w.val.natAbs ≤ twoTo k) :
    w.toDouble.steps ≤ twoTo (k + 1074) :=
  calc w.toDouble.steps ≤ roundSteps (twoTo k * unit) 1 := roundSteps_mono (Nat.mul_le_mul_right _ h)
    _ = twoTo (k + 1074) := by rw [twoTo_mul_unit, roundSteps_twoTo]

theorem isZero_toDouble : w.toDouble.isZero = true ↔ w.val = 0 := by
  rw [isZero_iff]
  constructor
  · intro hzero
    by_contra hne
    have hone : roundSteps unit 1 = unit := by rw [unit, roundSteps_twoTo]
    have hle : roundSteps unit 1 ≤ w.toDouble.steps := by
      rw [steps_toDouble]
      exact roundSteps_mono (Nat.le_mul_of_pos_left _ (Int.natAbs_pos.mpr hne))
    have := unit_pos
    omega
  · intro hzero
    rw [steps_toDouble, hzero, Int.natAbs_zero, Nat.zero_mul]
    exact roundSteps_exact (Nat.dvd_zero _)

theorem signed_iff (w : Whole) : w.isSigned = true ↔ Signed w.val := by
  have := w.lower
  simp only [isSigned, decide_eq_true_eq, Stencil.signed_iff]
  omega

theorem natAbs_le (h : Signed w.val) : w.val.natAbs ≤ twoTo 63 := by
  have hpower : twoTo 63 = 9223372036854775808 := by decide
  rw [Stencil.signed_iff] at h
  omega

/-! ### As real numbers -/

theorem value_toDouble (h : w.val.natAbs ≤ twoTo 53) : w.toDouble.value = w.val := by
  rw [value, signed_exact h, Int.cast_mul, Int.cast_natCast, mul_div_cancel_right₀ _ cast_unit_pos.ne']

theorem abs_value_toDouble_le (w : Whole) : |w.toDouble.value| ≤ w.val.natAbs * share := by
  have hround := roundSteps_one_le_share (w.val.natAbs * unit)
  rw [abs_value, div_le_iff₀ cast_unit_pos, mul_right_comm, steps_toDouble]
  exact_mod_cast hround

end Whole

/-! ## The exact result -/

namespace Arith

open Double

/-- The exact result, where the whole numbers have one. The remainder has the sign of the dividend. -/
def result? : Arith → Int → Int → Option Int
  | .add, a, b => some (a + b)
  | .sub, a, b => some (a - b)
  | .mul, a, b => some (a * b)
  | .div, _, _ => none
  | .rem, a, b => if b = 0 then none else some (a.tmod b)
  | .pow, a, b => if b < 0 then none else some (Int.pow a b.toNat)

/-- The operands that are left to the doubles, whatever the result is. -/
def GivesUp : Arith → Int → Int → Prop
  | .rem, a, b => a = -9223372036854775808 ∧ b = -1
  | .pow, _, b => 4294967296 ≤ b
  | _, _, _ => False

variable {a b r : Int} {n : Nat}

theorem twoTo_le_natAbs_pow (ha : 2 ≤ a.natAbs) : twoTo n ≤ (Int.pow a n).natAbs :=
  calc twoTo n ≤ a.natAbs ^ n := Nat.pow_le_pow_left ha n
    _ = (Int.pow a n).natAbs := (Int.natAbs_pow a n).symm

theorem pow_parity (ha : a.natAbs < 2) (hn : 0 < n) : Int.pow a (64 + n % 2) = Int.pow a n := by
  have hcases : a = 0 ∨ a = 1 ∨ a = -1 := by omega
  change a ^ (64 + n % 2) = a ^ n
  rcases hcases with rfl | rfl | rfl
  · rw [zero_pow (by omega), zero_pow (by omega)]
  · rw [one_pow, one_pow]
  · rw [pow_add, Even.neg_one_pow (by decide), one_mul, ← neg_one_pow_eq_pow_mod_two]

theorem ofSigned?_of_signed (h : Signed r) :
    ∃ w : Whole, w.val = r ∧ Number.ofSigned? r = some (.whole w) := by
  have hrange := signed_iff.mp h
  exact ⟨⟨r, hrange.1, by omega⟩, rfl, dif_pos hrange⟩

theorem ofSigned?_of_not_signed (h : ¬ Signed r) : Number.ofSigned? r = none :=
  dif_neg (mt signed_iff.mpr h)

theorem wholePower_bind (hb : 0 ≤ b) (hlimit : b < 4294967296) :
    (wholePower a b).bind Number.ofSigned? = Number.ofSigned? (Int.pow a b.toNat) := by
  have hexponent : ¬ ((decide (b < 0) || decide (4294967296 ≤ b)) = true) := by
    simp only [Bool.or_eq_true, decide_eq_true_eq]
    omega
  unfold wholePower
  rw [if_neg hexponent]
  split
  · rfl
  · split
    · next hlarge hbase =>
      have hpower : twoTo 65 ≤ (Int.pow a b.toNat).natAbs :=
        calc twoTo 65 ≤ twoTo b.toNat := twoTo_le (by omega)
          _ ≤ (Int.pow a b.toNat).natAbs := twoTo_le_natAbs_pow hbase
      have htwo : twoTo 65 = 36893488147419103232 := by decide
      rw [Option.bind_none, ofSigned?_of_not_signed]
      rw [signed_iff]
      omega
    · next hlarge hbase =>
      rw [Option.bind_some, pow_parity (by omega) (by omega)]

theorem signed?_whole (op : Arith) {a b : Whole} (ha : Signed a.val) (hb : Signed b.val) :
    op.signed? (.whole a) (.whole b) = (op.whole a.val b.val).bind Number.ofSigned? := by
  simp [signed?, Number.signed?, (Whole.signed_iff _).mpr ha, (Whole.signed_iff _).mpr hb]

theorem signed?_eq {op : Arith} {a b : Whole} (ha : Signed a.val) (hb : Signed b.val)
    (h : op.result? a.val b.val = some r) (hkeeps : ¬ op.GivesUp a.val b.val) :
    op.signed? (.whole a) (.whole b) = Number.ofSigned? r := by
  rw [signed?_whole op ha hb]
  cases op with
  | add | sub | mul =>
    cases h
    rfl
  | div => cases h
  | rem =>
    obtain ⟨-, rfl⟩ : b.val ≠ 0 ∧ a.val.tmod b.val = r := by simpa [result?] using h
    have hwhole : Arith.rem.whole a.val b.val = some (a.val.tmod b.val) := if_neg hkeeps
    rw [hwhole, Option.bind_some]
  | pow =>
    obtain ⟨hexponent, rfl⟩ : 0 ≤ b.val ∧ Int.pow a.val b.val.toNat = r := by
      simpa [result?] using h
    exact wholePower_bind hexponent (Int.not_le.mp hkeeps)

theorem whole_eq_none {op : Arith} (h : op.GivesUp a b) : op.whole a b = none := by
  cases op with
  | add | sub | mul | div => exact h.elim
  | rem => exact if_pos h
  | pow =>
    have hlarge : 4294967296 ≤ b := h
    simp [whole, wholePower, hlarge]

/-! ## The nearest doubles -/

theorem twoTo_lt_brink {k : Nat} (h : k < 2097) : twoTo k < brink :=
  Nat.lt_of_lt_of_le (twoTo_lt h) twoTo_le_brink

theorem double_ne_none {op : Arith} {a b : Whole} (ha : Signed a.val) (hb : Signed b.val)
    (h : op.result? a.val b.val = some r) (hop : op ≠ .pow) :
    op.double a.toDouble b.toDouble ≠ none := by
  have hx := Whole.steps_toDouble_le (Whole.natAbs_le ha)
  have hy := Whole.steps_toDouble_le (Whole.natAbs_le hb)
  have hxabs := natAbs_signed a.toDouble
  have hyabs := natAbs_signed b.toDouble
  have hdouble : twoTo (63 + 1074) + twoTo (63 + 1074) = twoTo 1138 := by
    rw [← Nat.mul_two, ← twoTo_succ]
  have hbrink : twoTo 1138 < brink := twoTo_lt_brink (by decide)
  cases op with
  | add =>
    rw [double, Ne, add_eq_none_iff, Nat.not_le]
    omega
  | sub =>
    rw [double, Ne, sub_eq_none_iff, Nat.not_le]
    omega
  | mul =>
    rw [double, Ne, mul_eq_none_iff, Nat.not_le]
    calc a.toDouble.steps * b.toDouble.steps
        ≤ twoTo (63 + 1074) * twoTo (63 + 1074) := Nat.mul_le_mul hx hy
      _ = twoTo 1200 * unit := by rw [unit, ← twoTo_add, ← twoTo_add]
      _ < brink * unit := Nat.mul_lt_mul_of_pos_right (twoTo_lt_brink (by decide)) unit_pos
  | div => cases h
  | rem =>
    rw [double, Ne, rem_eq_none_iff, Whole.isZero_toDouble]
    intro hzero
    simp [result?, hzero] at h
  | pow => exact absurd rfl hop

theorem pow_toDouble_ne_none {a b : Whole} (hb : 0 ≤ b.val)
    (hsmall : (Int.pow a.val b.val.toNat).natAbs < twoTo 1021) :
    a.toDouble.pow b.toDouble ≠ none := by
  have hpositive : b.toDouble.negative = false := decide_eq_false (Int.not_lt.mpr hb)
  refine pow_ne_none (fun _ hneg => ?_) (fun _ => .inr b.isWhole_toDouble) ?_
  · rw [hpositive] at hneg
    cases hneg
  by_cases hbase : a.val.natAbs < 2
  -- the powers of zero, one and minus one are small for every exponent
  · have hvalue : |a.toDouble.value| = a.val.natAbs := by
      rw [Whole.value_toDouble (hbase.le.trans (by decide)), Nat.cast_natAbs, Int.cast_abs]
    have hone : |a.toDouble.value| ≤ 1 := by
      rw [hvalue]
      exact_mod_cast Nat.le_of_lt_succ hbase
    have hexponent : 0 ≤ b.toDouble.value := by
      have hsigned : b.toDouble.signed = b.toDouble.steps := by simp [Double.signed, hpositive]
      rw [value, hsigned, Int.cast_natCast]
      exact div_nonneg (Nat.cast_nonneg _) (Nat.cast_nonneg _)
    calc |a.toDouble.value| ^ b.toDouble.value ≤ 1 := Real.rpow_le_one (abs_nonneg _) hone hexponent
      _ < twoTo 1022 := Nat.one_lt_cast.mpr (twoTo_lt (Nat.zero_lt_succ 1021))
  -- a base of two or more leaves only exponents that are doubles themselves
  · have hexponent : b.val.toNat < 1021 := by
      by_contra hlarge
      have := (twoTo_le (Nat.not_lt.mp hlarge)).trans (twoTo_le_natAbs_pow (Nat.not_lt.mp hbase))
      exact Nat.not_lt.mpr this hsmall
    have hsmallexp : b.val.natAbs ≤ 1021 := by omega
    have hvalue : b.toDouble.value = (b.val.toNat : ℝ) := by
      rw [Whole.value_toDouble (hsmallexp.trans (by decide))]
      exact_mod_cast (Int.toNat_of_nonneg hb).symm
    have hpower : a.val.natAbs ^ b.val.toNat < twoTo 1021 :=
      (Int.natAbs_pow a.val b.val.toNat).symm.trans_lt hsmall
    rw [hvalue, Real.rpow_natCast]
    generalize b.val.toNat = n at *
    calc |a.toDouble.value| ^ n ≤ (a.val.natAbs * share) ^ n :=
          pow_le_pow_left₀ (abs_nonneg _) (Whole.abs_value_toDouble_le a) n
      _ = (a.val.natAbs ^ n : Nat) * share ^ n := by rw [mul_pow, Nat.cast_pow]
      _ ≤ (a.val.natAbs ^ n : Nat) * 2 := by
          have hshare := (share_pow_le hexponent.le).trans (by norm_num : (3 / 2 : ℝ) ≤ 2)
          exact mul_le_mul_of_nonneg_left hshare (Nat.cast_nonneg _)
      _ < twoTo 1021 * 2 := mul_lt_mul_of_pos_right (Nat.cast_lt.mpr hpower) two_pos
      _ = twoTo 1022 := by
          rw [twoTo_succ 1021, Nat.cast_mul, Nat.cast_two]

/-! ## Arithmetic on the signed range -/

theorem apply_number (op : Arith) (m n : Number) :
    op.apply (.number m) (.number n) = op.numbers m n := by
  cases op <;> rfl

def DividesByZero (op : Arith) (n : Number) : Prop :=
  (op = .div ∨ op = .rem) ∧ n.isZero = true

instance (op : Arith) (n : Number) : Decidable (op.DividesByZero n) :=
  inferInstanceAs (Decidable ((op = .div ∨ op = .rem) ∧ n.isZero = true))

variable {op : Arith} {m n : Number}

theorem numbers_eq : op.numbers m n =
    if op.DividesByZero n then .error .divisionByZero
    else match op.signed? m n with
      | some k => .ok (.number k)
      | none => .ok (Value.ofDouble? (op.double m.toDouble n.toDouble)) := by
  have htest : ((op = .div || op = .rem) && n.isZero) = true ↔ op.DividesByZero n := by
    simp [DividesByZero]
  by_cases h : op.DividesByZero n
  · rw [if_pos h]
    exact if_pos (htest.mpr h)
  · rw [if_neg h]
    exact if_neg (mt htest.mp h)

theorem apply_eq_whole {k : Number} (hdivisor : ¬ op.DividesByZero n)
    (h : op.signed? m n = some k) : op.apply (.number m) (.number n) = .ok (.number k) := by
  rw [apply_number, numbers_eq, if_neg hdivisor, h]

theorem apply_eq_double (hdivisor : ¬ op.DividesByZero n) (h : op.signed? m n = none) :
    op.apply (.number m) (.number n) =
      .ok (Value.ofDouble? (op.double m.toDouble n.toDouble)) := by
  rw [apply_number, numbers_eq, if_neg hdivisor, h]

theorem not_dividesByZero {b : Whole} (h : op.result? a b.val = some r) :
    ¬ op.DividesByZero (.whole b) := by
  rintro ⟨hop, hzero⟩
  have hb : b.val = 0 := beq_iff_eq.mp hzero
  rcases hop with rfl | rfl
  · cases h
  · simp [result?, hb] at h

/-- The exact result is given as a whole number where the signed range holds it, unless the operation
gives up on its operands. Elsewhere the result is a double, or null for a power of a thousand binary
digits. -/
theorem apply_whole (op : Arith) {a b : Whole} {r : Int} (ha : Signed a.val) (hb : Signed b.val)
    (h : op.result? a.val b.val = some r) :
    ∃ v, op.apply (.number (.whole a)) (.number (.whole b)) = .ok v ∧
      (Signed r → ¬ op.GivesUp a.val b.val → ∃ w, v = .number (.whole w) ∧ w.val = r) ∧
      (¬ Signed r ∨ op.GivesUp a.val b.val →
        (∃ x, v = .number (.double x) ∧ op.double a.toDouble b.toDouble = some x) ∨
          v = .null ∧ op = .pow ∧ twoTo 1021 ≤ r.natAbs) := by
  by_cases hkeeps : Signed r ∧ ¬ op.GivesUp a.val b.val
  · obtain ⟨w, hw, hsome⟩ := ofSigned?_of_signed hkeeps.1
    have hkept := (signed?_eq ha hb h hkeeps.2).trans hsome
    refine ⟨_, apply_eq_whole (not_dividesByZero h) hkept, fun _ _ => ⟨w, rfl, hw⟩, ?_⟩
    rintro (hout | hgives)
    · exact absurd hkeeps.1 hout
    · exact absurd hgives hkeeps.2
  · have hnone : op.signed? (.whole a) (.whole b) = none := by
      by_cases hgives : op.GivesUp a.val b.val
      · rw [signed?_whole op ha hb, whole_eq_none hgives, Option.bind_none]
      · rw [signed?_eq ha hb h hgives]
        exact ofSigned?_of_not_signed fun hsigned => hkeeps ⟨hsigned, hgives⟩
    have happly := apply_eq_double (not_dividesByZero h) hnone
    refine ⟨_, happly, fun hsigned hkept => absurd ⟨hsigned, hkept⟩ hkeeps, fun _ => ?_⟩
    rw [Number.toDouble, Number.toDouble]
    cases hdouble : op.double a.toDouble b.toDouble with
    | some x => exact .inl ⟨x, rfl, rfl⟩
    | none =>
      refine .inr ⟨rfl, ?_⟩
      by_cases hop : op = .pow
      · subst hop
        refine ⟨rfl, Nat.not_lt.mp fun hsmall => ?_⟩
        obtain ⟨hexponent, rfl⟩ : 0 ≤ b.val ∧ Int.pow a.val b.val.toNat = r := by
          simpa [result?] using h
        exact pow_toDouble_ne_none hexponent hsmall hdouble
      · exact absurd hdouble (double_ne_none ha hb h hop)

theorem apply_whole_product : Signed 3 ∧ Signed (-4) ∧ result? .mul 3 (-4) = some (-12) ∧
    ∃ v, apply .mul (.number (.whole (Number.clampSigned 3)))
      (.number (.whole (Number.clampSigned (-4)))) = .ok v ∧
        ∃ w, v = .number (.whole w) ∧ w.val = -12 := by
  obtain ⟨v, happly, hwhole, -⟩ := apply_whole .mul (a := Number.clampSigned 3)
    (b := Number.clampSigned (-4)) (r := -12) (by decide) (by decide) rfl
  exact ⟨by decide, by decide, rfl, v, happly, hwhole (by decide) id⟩

/-- A power of one and a remainder of zero that are doubles, and a power past the signed range that is
no number at all. -/
theorem whole_results_lost :
    (result? .pow 1 4294967296 = some 1 ∧
      apply .pow (.number (.whole (Number.clampSigned 1)))
        (.number (.whole (Number.clampSigned 4294967296))) =
          .ok (.number (.double (Double.one false)))) ∧
    (result? .rem (-9223372036854775808) (-1) = some 0 ∧
      apply .rem (.number (.whole (Number.clampSigned (-9223372036854775808))))
        (.number (.whole (Number.clampSigned (-1)))) = .ok (.number (.double (Double.zero true)))) ∧
    result? .pow 10 400 = some (Int.pow 10 400) ∧ ¬ Signed (Int.pow 10 400) ∧
      apply .pow (.number (.whole (Number.clampSigned 10)))
        (.number (.whole (Number.clampSigned 400))) = .ok .null := by
  have hone : double .pow (Number.clampSigned 1).toDouble (Number.clampSigned 4294967296).toDouble =
      some (Double.one false) := by decide +kernel
  have hzero : double .rem (Number.clampSigned (-9223372036854775808)).toDouble
      (Number.clampSigned (-1)).toDouble = some (Double.zero true) := by decide +kernel
  have hnull : double .pow (Number.clampSigned 10).toDouble (Number.clampSigned 400).toDouble =
      none := by decide +kernel
  refine ⟨⟨congrArg some (one_pow _), ?_⟩, ⟨by decide, ?_⟩, rfl, by decide +kernel, ?_⟩
  · rw [apply_eq_double (by decide) (by decide), Number.toDouble, Number.toDouble, hone]
    rfl
  · rw [apply_eq_double (by decide) (by decide), Number.toDouble, Number.toDouble, hzero]
    rfl
  · rw [apply_eq_double (by decide) (by decide +kernel), Number.toDouble, Number.toDouble, hnull]
    rfl

end Arith

end Stencil

import Stencil.Proofs.Arithmetic.Places
import Stencil.Proofs.Arithmetic.Whole
/-!
# Where a number is lost

A numeric function of numbers gives a number, ends in the one error it has, or gives null. It gives null
for a result that has no double. For sums, differences, products and quotients this says exactly when
that happens, and for powers and roundings it says which operands are out of danger.
-/

namespace Stencil

namespace Number

theorem isZero_toDouble {n : Number} : n.toDouble.isZero = true ↔ n.isZero = true := by
  cases n with
  | whole w => rw [toDouble, Whole.isZero_toDouble, isZero, beq_iff_eq]
  | double x => rfl

theorem signed?_eq_some {n : Number} {i : Int} (h : n.signed? = some i) :
    ∃ w, n = .whole w ∧ Signed w.val ∧ w.val = i := by
  cases n with
  | double x => cases h
  | whole w =>
    obtain ⟨hsigned, rfl⟩ : w.isSigned = true ∧ w.val = i := by simpa [signed?] using h
    exact ⟨w, rfl, w.signed_iff.mp hsigned, rfl⟩

end Number

namespace Arith

open Double

/-- Whether the exact result of two real numbers has no double. For powers this is a bound: what is
defined and below it is never lost. -/
def Overflows : Arith → ℝ → ℝ → Prop
  | .add, x, y => top ≤ |x + y|
  | .sub, x, y => top ≤ |x - y|
  | .mul, x, y => top ≤ |x * y|
  | .div, x, y => top ≤ |x / y|
  | .rem, _, _ => False
  | .pow, x, y => x = 0 ∧ y < 0 ∨ (x < 0 ∧ ∀ k : Int, y ≠ k) ∨ twoTo 1022 ≤ |x| ^ y

variable {op : Arith} {m n : Number}

theorem double_eq_none_iff (hop : op ≠ .pow) (hdivisor : ¬ op.DividesByZero n) :
    op.double m.toDouble n.toDouble = none ↔
      op.Overflows m.toDouble.value n.toDouble.value := by
  have hzero (h : op = .div ∨ op = .rem) : ¬ n.toDouble.isZero = true := fun hn =>
    hdivisor ⟨h, Number.isZero_toDouble.mp hn⟩
  cases op with
  | add => exact add_eq_none_iff_top
  | sub => exact sub_eq_none_iff_top
  | mul => exact mul_eq_none_iff_top
  | div => exact div_eq_none_iff_top (hzero (.inl rfl))
  | rem => exact rem_eq_none_iff.trans (iff_of_false (hzero (.inr rfl)) id)
  | pow => exact absurd rfl hop

theorem pow_overflows {x y : Double} (h : x.pow y = none) : pow.Overflows x.value y.value := by
  by_contra hdefined
  obtain ⟨hzero, hsign, hsmall⟩ := by simpa only [Overflows, not_or] using hdefined
  refine pow_ne_none (fun hx hneg => ?_) (fun hneg => ?_) (not_le.mp hsmall) h
  · by_contra hy
    exact hzero ⟨value_eq_zero_iff.mpr hx, value_neg hneg hy⟩
  · by_contra hwhole
    rw [not_or] at hwhole
    exact hsign ⟨value_neg hneg hwhole.1, fun k hk => hwhole.2 (isWhole_of_value hk)⟩

theorem overflows_of_eq_none (hdivisor : ¬ op.DividesByZero n)
    (h : op.double m.toDouble n.toDouble = none) :
    op.Overflows m.toDouble.value n.toDouble.value := by
  by_cases hop : op = .pow
  · subst hop
    exact pow_overflows h
  · exact (double_eq_none_iff hop hdivisor).mp h

theorem whole_of_signed? {k : Number} (h : op.signed? m n = some k) :
    ∃ a b, m = .whole a ∧ n = .whole b ∧ Signed a.val ∧ Signed b.val ∧ op.whole a.val b.val ≠ none := by
  unfold signed? at h
  simp only [Option.bind_eq_bind, Option.bind_eq_some_iff] at h
  obtain ⟨i, hi, j, hj, r, hr, -⟩ := h
  obtain ⟨a, rfl, ha, rfl⟩ := Number.signed?_eq_some hi
  obtain ⟨b, rfl, hb, rfl⟩ := Number.signed?_eq_some hj
  exact ⟨a, b, rfl, rfl, ha, hb, hr ▸ Option.some_ne_none r⟩

theorem signed?_eq_none (hop : op ≠ .pow) (hdivisor : ¬ op.DividesByZero n)
    (h : op.double m.toDouble n.toDouble = none) : op.signed? m n = none := by
  by_contra hsome
  obtain ⟨k, hk⟩ := Option.ne_none_iff_exists'.mp hsome
  obtain ⟨a, b, rfl, rfl, ha, hb, hwhole⟩ := whole_of_signed? hk
  have hexact : ∃ r, op.result? a.val b.val = some r := by
    cases op with
    | add | sub | mul => exact ⟨_, rfl⟩
    | div => exact absurd rfl hwhole
    | rem =>
      have hb : b.val ≠ 0 := fun hzero => hdivisor ⟨.inr rfl, beq_iff_eq.mpr hzero⟩
      exact ⟨_, if_neg hb⟩
    | pow => exact absurd rfl hop
  obtain ⟨r, hr⟩ := hexact
  exact double_ne_none ha hb hr hop h

end Arith

/-- How a numeric function ends: in its error where it fails, with a number, or in null where the number
is lost. -/
def NumericResult (r : Except (Halt Fault) Value) (fault : Fault) (fails lost : Prop) : Prop :=
  fails ∧ r = .error (.raised fault) ∨ (∃ k, r = .ok (.number k)) ∨ lost ∧ r = .ok .null

theorem numericResult_ofDouble? {x? : Option Double} {fault : Fault} {fails lost : Prop}
    (h : x? = none → lost) : NumericResult (.ok (Value.ofDouble? x?)) fault fails lost := by
  cases x? with
  | some x => exact .inr (.inl ⟨.double x, rfl⟩)
  | none => exact .inr (.inr ⟨h rfl, rfl⟩)

namespace Arith

open Double

variable {op : Arith} {m n : Number}

theorem apply_lost (hdivisor : ¬ op.DividesByZero n) (hwhole : op.signed? m n = none)
    (h : op.double m.toDouble n.toDouble = none) : op.apply (.number m) (.number n) = .ok .null := by
  rw [apply_eq_double hdivisor hwhole, h]
  rfl

theorem apply_eq_null (hop : op ≠ .pow) (h : op.Overflows m.toDouble.value n.toDouble.value) :
    op.apply (.number m) (.number n) = .ok .null := by
  have hdivisor : ¬ op.DividesByZero n := by
    rintro ⟨hdiv | hrem, hzero⟩
    · subst hdiv
      have hvalue := value_eq_zero_iff.mpr (Number.isZero_toDouble.mpr hzero)
      rw [Overflows, hvalue, div_zero, abs_zero] at h
      exact absurd h (not_le.mpr top_pos)
    · subst hrem
      exact h
  have hnone := (double_eq_none_iff hop hdivisor).mpr h
  exact apply_lost hdivisor (signed?_eq_none hop hdivisor hnone) hnone

end Arith

namespace Builtin

open Double

variable {sorting : Sorting}

theorem apply_arith (op : Arith) (v w : Value) :
    apply sorting (.arith op) [v, w] = (op.apply v w).mapError .raised := rfl

theorem arith_numericResult (op : Arith) (m n : Number) :
    NumericResult (apply sorting (.arith op) [.number m, .number n]) .divisionByZero
      (op.DividesByZero n) (op.Overflows m.toDouble.value n.toDouble.value) := by
  rw [apply_arith]
  by_cases hdivisor : op.DividesByZero n
  · refine .inl ⟨hdivisor, ?_⟩
    rw [Arith.apply_number, Arith.numbers_eq, if_pos hdivisor]
    rfl
  · cases hwhole : op.signed? m n with
    | some k =>
      rw [Arith.apply_eq_whole hdivisor hwhole]
      exact .inr (.inl ⟨k, rfl⟩)
    | none =>
      rw [Arith.apply_eq_double hdivisor hwhole]
      exact numericResult_ofDouble? (Arith.overflows_of_eq_none hdivisor)

/-- The roundings that can be lost. The scale for places after the point is a double near the power of
ten, which goes no further than 308 places. -/
def RoundOverflows (x : ℝ) (places : Int) : Prop :=
  (0 < places ∧ ∃ scale, tenToThe (Min.min places 308) = some scale ∧ top ≤ |x * scale.value|) ∨
    places ≤ 0 ∧ twoTo 1022 ≤ |x|

theorem round_numericResult (x : Double) (places : Int) (fault : Fault) (fails : Prop) :
    NumericResult (.ok (roundTo x places)) fault fails (RoundOverflows x.value places) := by
  unfold roundTo
  by_cases hplaces : 0 < places
  · rw [if_pos hplaces]
    refine numericResult_ofDouble? fun hnone => .inl ⟨hplaces, ?_⟩
    have hlow : 0 < Min.min places 308 := by omega
    obtain ⟨f, hf, hiff⟩ := scaledRound_of_pos (x := x) hlow (by omega)
    exact ⟨f, hf, hiff.mp hnone⟩
  · rw [if_neg hplaces]
    cases hround : scaledRound x (Max.max places (-308)) with
    | some y =>
      dsimp only
      split
      · exact .inr (.inl ⟨_, rfl⟩)
      · exact .inr (.inl ⟨.double y, rfl⟩)
    | none =>
      have hlarge := scaledRound_of_nonpos (by omega) (by omega) hround
      exact .inr (.inr ⟨.inr ⟨by omega, hlarge⟩, rfl⟩)

theorem apply_round (m n : Number) : apply sorting .round [.number m, .number n] =
    match Arguments.wholePart? n with
    | some places => .ok (roundTo m.toDouble places)
    | none => .error (.raised (.outOfRange n)) := by
  have hdouble : Arguments.double [.number m, .number n] 0 = .ok m.toDouble := rfl
  have hinteger : Arguments.integer [.number m, .number n] 1 =
      match Arguments.wholePart? n with
      | some places => .ok places
      | none => .error (.outOfRange n) := rfl
  rw [apply, hdouble, hinteger]
  cases Arguments.wholePart? n <;> rfl

/-- A numeric function of numbers fails where it divides by zero or has no precision, and is null only
where the result overflows. Operators other than the power are null wherever it does. Conversions never
lose a number. -/
theorem apply_numeric (m n : Number) :
    (∀ op : Arith, NumericResult (apply sorting (.arith op) [.number m, .number n]) .divisionByZero
      (op.DividesByZero n) (op.Overflows m.toDouble.value n.toDouble.value)) ∧
    (∀ op : Arith, op ≠ .pow → op.Overflows m.toDouble.value n.toDouble.value →
      apply sorting (.arith op) [.number m, .number n] = .ok .null) ∧
    NumericResult (apply sorting .round [.number m, .number n]) (.outOfRange n)
      (Arguments.wholePart? n = none)
      (∃ places, Arguments.wholePart? n = some places ∧ RoundOverflows m.toDouble.value places) ∧
    (∃ k, apply sorting .int [.number m] = .ok (.number k)) ∧
    ∃ k, apply sorting .float [.number m] = .ok (.number k) := by
  refine ⟨fun op => arith_numericResult op m n, fun op hop h => ?_, ?_, ?_, ?_⟩
  · rw [apply_arith, Arith.apply_eq_null hop h]
    rfl
  · rw [apply_round]
    cases Arguments.wholePart? n with
    | some places =>
      refine (round_numericResult m.toDouble places _ _).imp_right (.imp_right fun hlost => ?_)
      exact ⟨⟨places, rfl, hlost.1⟩, hlost.2⟩
    | none => exact .inl ⟨rfl, rfl⟩
  · cases m with
    | whole w => exact ⟨_, rfl⟩
    | double x => exact ⟨_, rfl⟩
  · exact ⟨_, rfl⟩

def highestPower : Double := ⟨false, twoTo 2097, by decide +kernel⟩

def two : Number := .ofNat 2

def zero : Number := .ofNat 0

def minusOne : Number := .whole (Number.clampSigned (-1))

theorem apply_numeric_doubling : Arith.mul ≠ .pow ∧
    Arith.mul.Overflows highestPower.value two.toDouble.value ∧
    apply .stable (.arith .mul) [.number (.double highestPower), .number two] = .ok .null := by
  have hlarge : Arith.mul.Overflows highestPower.value two.toDouble.value :=
    mul_eq_none_iff_top.mp (by decide +kernel)
  exact ⟨by decide, hlarge, (apply_numeric (.double highestPower) two).2.1 .mul (by decide) hlarge⟩

/-- A product, a power and a rounding of numbers that are no numbers. -/
theorem numbers_lost :
    apply .stable (.arith .mul) [.number (.double highestPower), .number two] = .ok .null ∧
    apply .stable (.arith .pow) [.number zero, .number minusOne] = .ok .null ∧
    apply .stable .round [.number (.double highestPower), .number two] = .ok .null := by
  have hproduct : Arith.double .mul highestPower two.toDouble = none := by decide +kernel
  have hpower : Arith.double .pow zero.toDouble minusOne.toDouble = none := by decide +kernel
  have hround : scaledRound highestPower (Min.min 2 308) = none := by decide +kernel
  have hplaces : Arguments.wholePart? two = some 2 := by decide +kernel
  refine ⟨?_, ?_, ?_⟩
  · have hlost := Arith.apply_lost (m := .double highestPower) (by decide) (by decide +kernel) hproduct
    rw [apply_arith, hlost]
    rfl
  · have hlost := Arith.apply_lost (m := zero) (n := minusOne) (by decide) (by decide +kernel) hpower
    rw [apply_arith, hlost]
    rfl
  · have hnull : roundTo highestPower 2 = .null := by
      rw [roundTo, if_pos (by decide), hround]
      rfl
    rw [apply_round, hplaces]
    exact congrArg Except.ok hnull

end Builtin

end Stencil

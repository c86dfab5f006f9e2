import Stencil.Proofs.Order.Chain
import Stencil.Proofs.Order.Rounding
/-!
# The order of numbers

Two whole numbers can be nearest to one double. Between them that double breaks the order: it is
equal to both, and they are not equal.
-/

namespace Stencil.Number

def steps (n : Number) : Int := n.toDouble.signed

def tie : Number → Number → Ordering
  | .whole m, .whole n => compare m.val n.val
  | _, _ => .eq

theorem order_eq (a b : Number) : a.order b = (compare a.steps b.steps).then (tie a b) := by
  cases a with
  | double x => simp [order, Double.order, steps, tie]
  | whole m =>
    cases b with
    | double y => simp [order, Double.order, steps, tie]
    | whole n =>
      simp only [order, steps, tie, toDouble]
      rcases Whole.compare_signed m n with h | h
      · rw [h]
        cases compare m.toDouble.signed n.toDouble.signed <;> rfl
      · simp [h]

theorem tie_swap (a b : Number) : tie a b = (tie b a).swap := by
  cases a with
  | double x => simp [tie]
  | whole m =>
    cases b with
    | double y => simp [tie]
    | whole n => simpa [tie] using (Int.compare_swap n.val m.val).symm

theorem order_swap (a b : Number) : a.order b = (b.order a).swap := by
  rw [order_eq, order_eq b, Ordering.swap_then, Int.compare_swap, ← tie_swap]

/-! ## Ranges -/

def unsigned? : Number → Option Int
  | .whole n => if 0 ≤ n.val then some n.val else none
  | .double _ => none

def orderByRange (a b : Number) : Ordering :=
  match a.signed?, b.signed? with
  | some m, some n => compare m n
  | _, _ =>
    match a.unsigned?, b.unsigned? with
    | some m, some n => compare m n
    | _, _ => a.toDouble.order b.toDouble

theorem signed_lt {m n : Whole} (hm : m.val < 0) (hn : 0 < n.val) :
    m.toDouble.signed < n.toDouble.signed := by
  have hone := Whole.signed_exact (n := ⟨1, by decide, by decide⟩) (Double.twoTo_pos 53)
  have hmono := Whole.signed_mono (m := ⟨1, by decide, by decide⟩) (n := n) hn
  have hunit : 0 < Double.unit := Double.twoTo_pos _
  have hn' : (Double.unit : Int) ≤ n.toDouble.signed := by
    rw [hone, Int.one_mul] at hmono
    exact hmono
  have hm' : m.toDouble.signed ≤ 0 := by
    rw [Whole.signed_toDouble, if_pos hm]
    omega
  omega

/-- Of two whole numbers without a range in common one is negative and one is past the signed range, so
their doubles compare as they do. -/
theorem order_eq_byRange (a b : Number) : a.order b = a.orderByRange b := by
  cases a with
  | double x => rfl
  | whole m =>
    cases b with
    | double y => simp [orderByRange, order, signed?, unsigned?]
    | whole n =>
      have hdoubles : m.toDouble.signed ≠ n.toDouble.signed →
          m.toDouble.order n.toDouble = compare m.val n.val :=
        fun hne => ((Whole.compare_signed m n).resolve_right hne).symm
      simp only [orderByRange, order, signed?, unsigned?, Whole.isSigned, toDouble]
      by_cases hm : m.val < 9223372036854775808 <;> by_cases hn : n.val < 9223372036854775808
      · simp [hm, hn]
      · by_cases hneg : m.val < 0
        · have hlt := signed_lt hneg (n := n) (by omega)
          simp [hm, hn, show ¬ 0 ≤ m.val by omega, hdoubles (by omega)]
        · simp [hm, hn, show 0 ≤ m.val by omega, show 0 ≤ n.val by omega]
      · by_cases hneg : n.val < 0
        · have hlt := signed_lt hneg (n := m) (by omega)
          simp [hm, hn, show ¬ 0 ≤ n.val by omega, hdoubles (by omega)]
        · simp [hm, hn, show 0 ≤ m.val by omega, show 0 ≤ n.val by omega]
      · simp [hm, hn, show 0 ≤ m.val by omega, show 0 ≤ n.val by omega]

/-- No double is nearest to two different whole numbers. -/
def Clear (among : Number → Prop) : Prop :=
  ∀ m n x, among (.whole m) → among (.whole n) → among (.double x) →
    (Number.whole m).order (.double x) = .eq → (Number.whole n).order (.double x) = .eq → m = n

/-- Whole numbers up to 2^53, and all doubles. -/
def Exact : Number → Prop
  | .whole n => n.val.natAbs ≤ Double.twoTo 53
  | .double _ => True

theorem clear_exact : Clear Exact := by
  intro m n x hm hn _ hmx hnx
  have hm' := Whole.signed_exact hm
  have hn' := Whole.signed_exact hn
  have hsteps : m.toDouble.signed = n.toDouble.signed :=
    (Int.compare_eq_eq.mp hmx).trans (Int.compare_eq_eq.mp hnx).symm
  rw [hm', hn'] at hsteps
  have hunit : (Double.unit : Int) ≠ 0 := Int.natCast_ne_zero.mpr (Nat.ne_of_gt (Double.twoTo_pos _))
  exact Whole.ext (Int.eq_of_mul_eq_mul_right hunit hsteps)

variable {among : Number → Prop} {a b c : Number}

theorem Clear.tie_eq (h : Clear among) (ha : among a) (hb : among b) {x : Double}
    (hx : among (.double x)) (hax : a.steps = x.signed) (hbx : b.steps = x.signed) :
    tie a b = .eq := by
  cases a with
  | double y => rfl
  | whole m =>
    cases b with
    | double y => rfl
    | whole n =>
      have hm : (Number.whole m).order (.double x) = .eq := Int.compare_eq_eq.mpr hax
      have hn : (Number.whole n).order (.double x) = .eq := Int.compare_eq_eq.mpr hbx
      rw [h m n x ha hb hx hm hn]
      simp [tie]

theorem tie_chain (h : Clear among) (ha : among a) (hb : among b) (hc : among c)
    (hab : a.steps = b.steps) (hbc : b.steps = c.steps) : Chain (tie a b) (tie b c) (tie a c) := by
  -- with a double among the three, the wholes are the same
  have hdouble : ∀ x, among (.double x) → a.steps = x.signed →
      Chain (tie a b) (tie b c) (tie a c) := by
    intro x hx hax
    have hbx : b.steps = x.signed := hab ▸ hax
    have hcx : c.steps = x.signed := hbc ▸ hbx
    rw [h.tie_eq ha hb hx hax hbx, h.tie_eq hb hc hx hbx hcx, h.tie_eq ha hc hx hax hcx]
    exact ⟨id, id, id⟩
  cases a with
  | double x => exact hdouble x ha rfl
  | whole l =>
    cases b with
    | double x => exact hdouble x hb hab
    | whole m =>
      cases c with
      | double x => exact hdouble x hc (hab.trans hbc)
      | whole n => exact Chain.of_trans l.val m.val n.val

theorem order_chain (h : Clear among) (ha : among a) (hb : among b) (hc : among c) :
    Chain (a.order b) (b.order c) (a.order c) := by
  rw [order_eq a b, order_eq b c, order_eq a c]
  refine (Chain.of_trans a.steps b.steps c.steps).lex fun hab hbc => ?_
  exact tie_chain h ha hb hc (Int.compare_eq_eq.mp hab) (Int.compare_eq_eq.mp hbc)

theorem clear_of_trans (h : ∀ a b c, among a → among b → among c →
    a.order b ≠ .gt → b.order c ≠ .gt → a.order c ≠ .gt) : Clear among := by
  have hle : ∀ m n x, among (.whole m) → among (.whole n) → among (.double x) →
      (Number.whole m).order (.double x) = .eq → (Number.whole n).order (.double x) = .eq →
      m.val ≤ n.val := by
    intro m n x hm hn hx hmx hnx
    have hxn : (Number.double x).order (.whole n) = .eq := by rw [order_swap, hnx]; rfl
    have hmn := h _ _ _ hm hx hn (by simp [hmx]) (by simp [hxn])
    exact Int.compare_ne_gt.mp hmn
  intro m n x hm hn hx hmx hnx
  exact Whole.ext
    (Int.le_antisymm (hle m n x hm hn hx hmx hnx) (hle n m x hn hm hx hnx hmx))

end Stencil.Number

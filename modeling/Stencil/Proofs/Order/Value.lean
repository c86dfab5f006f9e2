import Stencil.Proofs.Order.Number
import Stencil.Value.Order
/-!
# The order of values

The order is reflexive, and turning a comparison around turns the result around. It carries over
from one comparison to the next exactly among numbers that are clear of each other.
-/

namespace Stencil.Value

variable {among : Number → Prop}

/-! ## Lists and kinds -/

theorem orderItems_cons (x y : Value) (xs ys : List Value) :
    orderItems (x :: xs) (y :: ys) = (order x y).then (orderItems xs ys) := by
  rw [orderItems]
  cases order x y <;> rfl

theorem orderFields_cons (k l : String) (x y : Value) (xs ys : List (String × Value)) :
    orderFields ((k, x) :: xs) ((l, y) :: ys) =
      (compare k l).then ((order x y).then (orderFields xs ys)) := by
  rw [orderFields]
  cases compare k l <;> cases order x y <;> rfl

theorem order_of_kind_ne {a b : Value} (h : a.kind ≠ b.kind) :
    order a b = compare a.kind.rank b.kind.rank := by
  cases a <;> cases b <;> first | exact absurd rfl h | rfl

theorem Kind.rank_inj {k l : Kind} (h : k.rank = l.rank) : k = l := by
  cases k <;> cases l <;> simp [rank] at h ⊢

theorem order_by_kind (a b : Value) :
    order a b = (compare a.kind.rank b.kind.rank).then (order a b) := by
  by_cases h : a.kind = b.kind
  · simp [h]
  · have hne : compare a.kind.rank b.kind.rank ≠ .eq :=
      fun heq => h (Kind.rank_inj (Nat.compare_eq_eq.mp heq))
    rw [Chain.then_of_ne hne, order_of_kind_ne h]

/-! ## Turned around -/

mutual

theorem order_swap : ∀ a b : Value, order a b = (order b a).swap
  | .null, b => by cases b <;> rfl
  | .bool x, b => by
    cases b with
    | bool y => exact Std.OrientedOrd.eq_swap (a := x) (b := y)
    | _ => rfl
  | .number x, b => by
    cases b with
    | number y => exact Number.order_swap x y
    | _ => rfl
  | .string x, b => by
    cases b with
    | string y => exact Std.OrientedOrd.eq_swap (a := x) (b := y)
    | _ => rfl
  | .array xs, b => by
    cases b with
    | array ys => exact orderItems_swap xs ys
    | _ => rfl
  | .object xs, b => by
    cases b with
    | object ys => exact orderFields_swap xs ys
    | _ => rfl

theorem orderItems_swap : ∀ xs ys : List Value, orderItems xs ys = (orderItems ys xs).swap
  | [], [] => rfl
  | [], _ :: _ => rfl
  | _ :: _, [] => rfl
  | x :: xs, y :: ys => by
    rw [orderItems_cons, orderItems_cons, Ordering.swap_then, ← order_swap x y,
      ← orderItems_swap xs ys]

theorem orderFields_swap :
    ∀ xs ys : List (String × Value), orderFields xs ys = (orderFields ys xs).swap
  | [], [] => rfl
  | [], _ :: _ => rfl
  | _ :: _, [] => rfl
  | (k, x) :: xs, (l, y) :: ys => by
    rw [orderFields_cons, orderFields_cons, Ordering.swap_then, Ordering.swap_then,
      ← order_swap x y, ← orderFields_swap xs ys, ← Std.OrientedCmp.eq_swap]

end

theorem order_self (a : Value) : order a a = .eq := by
  have h := order_swap a a
  cases ho : order a a with
  | eq => rfl
  | lt => simp [ho] at h
  | gt => simp [ho] at h

/-! ## Carried over -/

mutual

def Within (among : Number → Prop) : Value → Prop
  | .number n => among n
  | .array items => ItemsWithin among items
  | .object fields => FieldsWithin among fields
  | _ => True

def ItemsWithin (among : Number → Prop) : List Value → Prop
  | [] => True
  | x :: xs => x.Within among ∧ ItemsWithin among xs

def FieldsWithin (among : Number → Prop) : List (String × Value) → Prop
  | [] => True
  | (_, x) :: xs => x.Within among ∧ FieldsWithin among xs

end

theorem chain_of_kind {a b c : Value}
    (h : a.kind = b.kind → b.kind = c.kind → Chain (order a b) (order b c) (order a c)) :
    Chain (order a b) (order b c) (order a c) := by
  rw [order_by_kind a b, order_by_kind b c, order_by_kind a c]
  refine (Chain.of_trans _ _ _).lex fun hab hbc => ?_
  exact h (Kind.rank_inj (Nat.compare_eq_eq.mp hab)) (Kind.rank_inj (Nat.compare_eq_eq.mp hbc))

theorem orderItems_end {xs ys zs : List Value} (h : xs = [] ∨ ys = [] ∨ zs = []) :
    Chain (orderItems xs ys) (orderItems ys zs) (orderItems xs zs) :=
  .of_end rfl (fun _ _ => rfl) (fun _ _ => rfl) h

theorem orderFields_end {xs ys zs : List (String × Value)} (h : xs = [] ∨ ys = [] ∨ zs = []) :
    Chain (orderFields xs ys) (orderFields ys zs) (orderFields xs zs) :=
  .of_end rfl (fun _ _ => rfl) (fun _ _ => rfl) h

mutual

theorem order_chain (h : Number.Clear among) : ∀ a b c : Value,
    a.Within among → b.Within among → c.Within among →
    Chain (order a b) (order b c) (order a c)
  | .null, b, c, _, _, _ => chain_of_kind fun hb hc => by
    cases b with
    | null =>
      cases c with
      | null => exact ⟨id, id, id⟩
      | _ => simp [kind] at hc
    | _ => simp [kind] at hb
  | .bool x, b, c, _, _, _ => chain_of_kind fun hb hc => by
    cases b with
    | bool y =>
      cases c with
      | bool z => exact Chain.of_trans x y z
      | _ => simp [kind] at hc
    | _ => simp [kind] at hb
  | .number _, b, c, hx, hy, hz => chain_of_kind fun hb hc => by
    cases b with
    | number _ =>
      cases c with
      | number _ => exact Number.order_chain h hx hy hz
      | _ => simp [kind] at hc
    | _ => simp [kind] at hb
  | .string x, b, c, _, _, _ => chain_of_kind fun hb hc => by
    cases b with
    | string y =>
      cases c with
      | string z => exact Chain.of_trans x y z
      | _ => simp [kind] at hc
    | _ => simp [kind] at hb
  | .array xs, b, c, hx, hy, hz => chain_of_kind fun hb hc => by
    cases b with
    | array ys =>
      cases c with
      | array zs => exact orderItems_chain h xs ys zs hx hy hz
      | _ => simp [kind] at hc
    | _ => simp [kind] at hb
  | .object xs, b, c, hx, hy, hz => chain_of_kind fun hb hc => by
    cases b with
    | object ys =>
      cases c with
      | object zs => exact orderFields_chain h xs ys zs hx hy hz
      | _ => simp [kind] at hc
    | _ => simp [kind] at hb

theorem orderItems_chain (h : Number.Clear among) : ∀ xs ys zs : List Value,
    ItemsWithin among xs → ItemsWithin among ys → ItemsWithin among zs →
    Chain (orderItems xs ys) (orderItems ys zs) (orderItems xs zs)
  | [], _, _, _, _, _ => orderItems_end (.inl rfl)
  | _ :: _, [], _, _, _, _ => orderItems_end (.inr (.inl rfl))
  | _ :: _, _ :: _, [], _, _, _ => orderItems_end (.inr (.inr rfl))
  | x :: xs, y :: ys, z :: zs, hx, hy, hz => by
    rw [orderItems_cons, orderItems_cons, orderItems_cons]
    exact (order_chain h x y z hx.1 hy.1 hz.1).lex fun _ _ =>
      orderItems_chain h xs ys zs hx.2 hy.2 hz.2

theorem orderFields_chain (h : Number.Clear among) : ∀ xs ys zs : List (String × Value),
    FieldsWithin among xs → FieldsWithin among ys → FieldsWithin among zs →
    Chain (orderFields xs ys) (orderFields ys zs) (orderFields xs zs)
  | [], _, _, _, _, _ => orderFields_end (.inl rfl)
  | _ :: _, [], _, _, _, _ => orderFields_end (.inr (.inl rfl))
  | _ :: _, _ :: _, [], _, _, _ => orderFields_end (.inr (.inr rfl))
  | (k, x) :: xs, (l, y) :: ys, (m, z) :: zs, hx, hy, hz => by
    rw [orderFields_cons, orderFields_cons, orderFields_cons]
    refine (Chain.of_trans k l m).lex fun _ _ => ?_
    exact (order_chain h x y z hx.1 hy.1 hz.1).lex fun _ _ =>
      orderFields_chain h xs ys zs hx.2 hy.2 hz.2

end

theorem same_iff {a b : Value} : same a b = true ↔ order a b = .eq := by
  simp [same]

/-- Comparing is a preorder among numbers that are clear of each other, and only there. -/
theorem order_preorder (among : Number → Prop) :
    (∀ a b, order a b = (order b a).swap) ∧ (∀ a, order a a = .eq) ∧
    (Number.Clear among ↔
      ∀ a b c : Value, a.Within among → b.Within among → c.Within among →
        (order a b ≠ .gt → order b c ≠ .gt → order a c ≠ .gt) ∧
        (same a b = true → same b c = true → same a c = true) ∧
        (same a b = true → order a c = order b c ∧ order c a = order c b)) := by
  refine ⟨order_swap, order_self, fun h a b c ha hb hc => ?_, fun h => ?_⟩
  · have hchain := order_chain h a b c ha hb hc
    refine ⟨hchain.ne_gt, fun hab hbc => ?_, fun hab => ?_⟩
    · rw [same_iff] at hab hbc ⊢
      rw [hchain.left hab, hbc]
    · have hac := hchain.left (same_iff.mp hab)
      exact ⟨hac, by rw [order_swap c a, hac, ← order_swap c b]⟩
  -- numbers are values, so what carries over among values does so among numbers
  · apply Number.clear_of_trans
    intro a b c ha hb hc
    exact (h (.number a) (.number b) (.number c) ha hb hc).1

def two : Whole := ⟨2, by decide, by decide⟩

def three : Whole := ⟨3, by decide, by decide⟩

theorem order_preorder_three :
    same (.array [.number (.whole three)]) (.array [.number (.double three.toDouble)]) = true ∧
    order (.array [.number (.whole three)]) (.array [.number (.whole two)]) =
      order (.array [.number (.double three.toDouble)]) (.array [.number (.whole two)]) := by
  have hsame : same (.array [.number (.whole three)])
      (.array [.number (.double three.toDouble)]) = true := by decide +kernel
  have hwhole : ∀ n : Whole, n.val.natAbs ≤ Double.twoTo 53 →
      (Value.array [.number (.whole n)]).Within Number.Exact := fun n hn => ⟨hn, trivial⟩
  have hdouble : (Value.array [.number (.double three.toDouble)]).Within Number.Exact :=
    ⟨trivial, trivial⟩
  have h := (order_preorder Number.Exact).2.2.mp Number.clear_exact _ _ _ (hwhole three (by decide +kernel))
    hdouble (hwhole two (by decide +kernel))
  exact ⟨hsame, (h.2.2 hsame).1⟩

def odd : Whole := ⟨9007199254740993, by decide, by decide⟩

def even : Whole := ⟨9007199254740992, by decide, by decide⟩

/-- Both numbers are equal to the double of the even one, and the odd one is greater. -/
theorem order_breaks :
    order (.number (.whole odd)) (.number (.double even.toDouble)) = .eq ∧
    order (.number (.double even.toDouble)) (.number (.whole even)) = .eq ∧
    order (.number (.whole odd)) (.number (.whole even)) = .gt := by
  decide +kernel

end Stencil.Value

import Stencil.Value
/-!
# The order of values

Values of one kind compare by content, values of two kinds by kind. Numbers compare by value,
whether they are whole or not.
-/

namespace Stencil.Value

def Kind.rank : Kind → Nat
  | .null => 0
  | .bool => 1
  | .number => 2
  | .object => 3
  | .array => 4
  | .string => 5

mutual

def order : Value → Value → Ordering
  | .bool a, .bool b => compare a b
  | .number a, .number b => a.order b
  | .string a, .string b => compare a b
  | .array a, .array b => orderItems a b
  | .object a, .object b => orderFields a b
  | a, b => compare a.kind.rank b.kind.rank

/-- The first difference decides, and the end of a list comes before any item. -/
def orderItems : List Value → List Value → Ordering
  | [], [] => .eq
  | [], _ :: _ => .lt
  | _ :: _, [] => .gt
  | x :: xs, y :: ys =>
    match order x y with
    | .eq => orderItems xs ys
    | o => o

/-- Entries differ by key before they differ by value. -/
def orderFields : List (String × Value) → List (String × Value) → Ordering
  | [], [] => .eq
  | [], _ :: _ => .lt
  | _ :: _, [] => .gt
  | (k, x) :: xs, (l, y) :: ys =>
    match compare k l with
    | .eq =>
      match order x y with
      | .eq => orderFields xs ys
      | o => o
    | o => o

end

def same (a b : Value) : Bool := order a b == .eq

/-! ## Sorting -/

/-- Comparisons of the values add up, as they do in an order. -/
def Ordered (items : List Value) : Prop :=
  ∀ a ∈ items, ∀ b ∈ items, ∀ c ∈ items, order a b ≠ .gt → order b c ≠ .gt → order a c ≠ .gt

def insertDescending (x : Value) : List Value → List Value
  | [] => [x]
  | y :: ys => if order x y = .lt then y :: insertDescending x ys else x :: y :: ys

def insertionSort (items : List Value) : List Value :=
  (items.foldl (fun sorted x => insertDescending x sorted) []).reverse

/-- Sorts and keeps equal values in their order. Short lists are sorted by insertion. -/
def sort (items : List Value) : List Value :=
  if items.length ≤ 20 then insertionSort items
  else items.mergeSort fun a b => order a b != .gt

/-- The first item that every later one compares to with something else than `wanted`. -/
def extreme (wanted : Ordering) : List Value → Option Value
  | [] => none
  | x :: xs => some (xs.foldl (fun best item => if order item best = wanted then item else best) x)

def greatest (items : List Value) : Value := (extreme .gt items).getD .null

def least (items : List Value) : Value := (extreme .lt items).getD .null

end Stencil.Value

namespace Stencil

/-- A way to sort. What it makes of values that are in no order is left open, also whether it makes
anything of them. -/
structure Sorting where
  sort : List Value → Option (List Value)
  sort_ordered : ∀ items, Value.Ordered items → sort items = some (Value.sort items)

/-- Sorts values in no order as if they were in one. -/
def Sorting.stable : Sorting := ⟨fun items => some (Value.sort items), fun _ _ => rfl⟩

end Stencil

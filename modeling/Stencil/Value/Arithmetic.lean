import Stencil.Fault
/-!
# Arithmetic

Whole numbers of the signed range give a whole number again, as long as the result stays in the
range. In all other cases the nearest doubles are used. A quotient is always a double.
-/

namespace Stencil

namespace Arith

/-- The power, if it is a whole number. Large exponents are cut down where the base allows it. -/
def wholePower (a b : Int) : Option Int :=
  if b < 0 || 4294967296 ≤ b then none
  else if b ≤ 64 then some (Int.pow a b.toNat)
  else if 2 ≤ a.natAbs then none
  else some (Int.pow a (64 + b.toNat % 2))

/-- The exact result. The least number has no remainder by minus one, since its quotient is past
the range. -/
def whole : Arith → Int → Int → Option Int
  | .add, a, b => some (a + b)
  | .sub, a, b => some (a - b)
  | .mul, a, b => some (a * b)
  | .div, _, _ => none
  | .rem, a, b => if a = -9223372036854775808 ∧ b = -1 then none else some (a.tmod b)
  | .pow, a, b => wholePower a b

def double : Arith → Double → Double → Option Double
  | .add, x, y => x.add y
  | .sub, x, y => x.sub y
  | .mul, x, y => x.mul y
  | .div, x, y => x.div y
  | .rem, x, y => x.rem y
  | .pow, x, y => x.pow y

def signed? (op : Arith) (a b : Number) : Option Number := do
  Number.ofSigned? (← op.whole (← a.signed?) (← b.signed?))

def numbers (op : Arith) (a b : Number) : Except Fault Value :=
  if (op = .div || op = .rem) && b.isZero then .error .divisionByZero
  else match op.signed? a b with
    | some n => .ok (.number n)
    | none => .ok (Value.ofDouble? (op.double a.toDouble b.toDouble))

/-- Strings can be added, which joins them. -/
def apply (op : Arith) (a b : Value) : Except Fault Value :=
  match op, a, b with
  | .add, .string s, .string t => .ok (.string (s ++ t))
  | op, .number m, .number n => op.numbers m n
  | op, a, b => .error (.arithmetic op a.kind b.kind)

end Arith

end Stencil

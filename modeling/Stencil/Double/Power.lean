import Stencil.Double
/-!
# Powers of doubles

`pow` rounds the exact power once. The power is found as `2^(y · log2 x)` in fixed point, with far
more digits than a double keeps, and a power that has few digits is met exactly.

`tenToThe` is a different thing. It multiplies doubles, and rounds at every step.
-/

namespace Stencil.Double

/-! ## Fixed point -/

def places : Nat := 256

/-- The next binary digits of `log2 f`, where `f` is between one and two. Squaring doubles the
logarithm, so a square of two or more means a digit one. -/
def logDigits : Nat → Nat → Nat → Nat
  | 0, _, found => found
  | n + 1, f, found =>
    let square := f * f / twoTo places
    if square < twoTo (places + 1) then logDigits n square (2 * found)
    else logDigits n (square / 2) (2 * found + 1)

def log2Fixed (steps : Nat) : Int :=
  let top := steps.log2
  ((top : Int) - 1074) * twoTo places + logDigits places (steps * twoTo places / twoTo top) 0

/-- The natural logarithm of two, the sum of `1 / (k · 2^k)`. -/
def ln2 : Nat :=
  (List.range 272).foldl (fun sum k => sum + twoTo places / ((k + 1) * twoTo (k + 1))) 0

/-- The exponential series of `z`, from the term `z^k / k!` on. -/
def expTerms (z : Nat) : Nat → Nat → Nat → Nat
  | 0, _, _ => 0
  | n + 1, k, term => term + expTerms z n (k + 1) (term * z / twoTo places / (k + 1))

def exp2Fixed (z : Nat) : Nat := expTerms (z * ln2 / twoTo places) 72 0 (twoTo places)

/-- A value within 2^-200 of a multiple of 2^-100 is taken to be that multiple. -/
def snap (n : Nat) : Nat :=
  let grain := twoTo (places - 100)
  let near := nearest n grain * grain
  let off := if n < near then near - n else n - near
  if off < twoTo (places - 200) then near else n

/-! ## The power -/

def isWhole (x : Double) : Bool := x.steps % unit == 0

def isOdd (x : Double) : Bool := x.isWhole && x.steps / unit % 2 == 1

def one (negative : Bool) : Double := ofWhole (if negative then -1 else 1) (by cases negative <;> decide)

/-- `2^exponent` with a sign, where the exponent is in fixed point. Fixed point cuts off, so half a unit
of it is put back. This sends a power that is exactly between two doubles to the larger one, except
among the smallest doubles, where the even one is taken. -/
def exp2 (negative : Bool) (exponent : Int) : Option Double :=
  let whole := exponent / twoTo places
  if 1024 ≤ whole then none
  else if whole < -1100 then some (zero negative)
  else
    let mantissa := snap (exp2Fixed (exponent % twoTo places).toNat)
    let half := if whole < -1022 then 0 else 1
    ofRatio? negative ((2 * mantissa + half) * twoTo (whole + 1100).toNat) (twoTo (places + 27))

/-- A power of a negative number exists for whole exponents only, and is negative for odd ones. A
negative power of zero is past every double. The precision of powers is specified nowhere, and those of
a machine may differ in the last digit. -/
def pow (x y : Double) : Option Double :=
  let negative := x.negative && y.isOdd
  if y.isZero then some (one false)
  else if x.isZero then
    if y.negative then none else some (zero negative)
  else if x.negative && !y.isWhole then none
  else if x.steps = unit then some (one negative)
  else
    let log := log2Fixed x.steps
    exp2 negative (y.signed * log / unit)

/-! ## Powers of ten by repeated squaring -/

def ten : Double := ofWhole 10 (by decide)

def squarings : Nat → Nat → Double → Double → Option Double
  | 0, _, _, r => some r
  | fuel + 1, n, a, r => do
    let r ← if n % 2 = 1 then r.mul a else some r
    if n / 2 = 0 then return r
    squarings fuel (n / 2) (← a.mul a) r

def tenToThe (n : Int) : Option Double := do
  let r ← squarings (n.natAbs + 1) n.natAbs ten (one false)
  if n < 0 then (one false).div r else return r

end Stencil.Double

import Stencil.Double
/-!
# Decimal numerals of doubles

Reading rounds the exact value of the numeral once. Writing takes the shortest numeral that reads
back as the same double, and of those the nearest.
-/

namespace Stencil

structure Decimal where
  coefficient : Nat
  exponent : Int
deriving DecidableEq

namespace Double

/-! ## Reading -/

/-- The double nearest to a decimal, unless that is past the largest one. Exponents that decide the
answer alone are not raised to a power. -/
def ofDecimal? (negative : Bool) (d : Decimal) : Option Double :=
  if d.coefficient = 0 then some (zero negative)
  else if 400 < d.exponent then none
  else if d.exponent < -(400 + d.coefficient.log2 : Int) then some (zero negative)
  else if 0 ≤ d.exponent then
    ofRatio? negative (d.coefficient * Nat.pow 10 d.exponent.toNat * unit) 1
  else ofRatio? negative (d.coefficient * unit) (Nat.pow 10 (-d.exponent).toNat)

/-! ## The interval that reads back -/

/-- The magnitudes that round to one double, in quarter steps. -/
structure Basin where
  low : Nat
  middle : Nat
  high : Nat
  /-- Whether the two ends round to the double as well. -/
  closed : Bool

/-- Half the gap to each neighbour. Below a power of two the gap is half as wide. -/
def basin (x : Double) : Basin :=
  let s := spare x.steps
  let gap := twoTo s
  let down := if x.steps = twoTo 52 * gap ∧ 0 < s then gap else 2 * gap
  { low := 4 * x.steps - down
    middle := 4 * x.steps
    high := 4 * x.steps + 2 * gap
    closed := x.steps / gap % 2 == 0 }

def grid (exponent : Int) : Nat × Nat :=
  if 0 ≤ exponent then (Nat.pow 10 exponent.toNat * (4 * unit), 1)
  else (4 * unit, Nat.pow 10 (-exponent).toNat)

def Basin.holds (b : Basin) (n num den : Nat) : Bool :=
  if b.closed then b.low * den ≤ n * num && n * num ≤ b.high * den
  else b.low * den < n * num && n * num < b.high * den

/-- The grid point in the basin that is nearest to the middle. A tie goes to the even one. -/
def Basin.hit? (b : Basin) (num den : Nat) : Option Nat :=
  let below := b.middle * den / num
  let near := nearest (b.middle * den) num
  if 0 < near && b.holds near num den then some near
  else if 0 < below && b.holds below num den then some below
  else if b.holds (below + 1) num den then some (below + 1)
  else none

def Basin.search (b : Basin) : Nat → Int → Decimal
  | 0, exponent => ⟨nearest (b.middle * (grid exponent).2) (grid exponent).1, exponent⟩
  | n + 1, exponent =>
    match b.hit? (grid exponent).1 (grid exponent).2 with
    | some c => ⟨c, exponent⟩
    | none => b.search n (exponent - 1)

def coarsest (x : Double) : Int := ((x.steps.log2 : Int) - 1073) * 30103 / 100000 + 2

/-- The shortest decimal that reads back as the magnitude of the double. -/
def shortest (x : Double) : Decimal :=
  if x.steps = 0 then ⟨0, 0⟩ else x.basin.search 24 x.coarsest

end Double

end Stencil

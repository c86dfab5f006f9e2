import Stencil.Number
/-!
# JSON numerals

A numeral is cut into its parts first. A part without point and exponent is a whole number if 64
bits hold it. All other numerals are doubles. Their digits go into 64 bits as long as they fit, and
the result is scaled by a power of ten, with a rounding at each of the two steps. So does serde_json 1.0
without its feature of exact doubles.
-/

namespace Stencil.Json

structure Numeral where
  negative : Bool
  whole : List Char
  fraction : Option (List Char)
  exponent : Option Int

namespace Numeral

/-! ## The parts -/

def digitValue (c : Char) : Nat := c.toNat - '0'.toNat

def digitsValue (cs : List Char) : Nat := cs.foldl (fun n c => 10 * n + digitValue c) 0

def digits? (cs : List Char) : Option (List Char × List Char) :=
  match cs.span Char.isDigit with
  | ([], _) => none
  | found => some found

/-- A zero in front stands alone. -/
def whole? (cs : List Char) : Option (List Char × List Char) :=
  match digits? cs with
  | some ('0' :: _ :: _, _) => none
  | found => found

def fraction? : List Char → Option (Option (List Char) × List Char)
  | '.' :: cs => (digits? cs).map fun (ds, rest) => (some ds, rest)
  | cs => some (none, cs)

def signedDigits? : List Char → Option (Int × List Char)
  | '-' :: cs => (digits? cs).map fun (ds, rest) => (-(digitsValue ds : Int), rest)
  | '+' :: cs => (digits? cs).map fun (ds, rest) => ((digitsValue ds : Int), rest)
  | cs => (digits? cs).map fun (ds, rest) => ((digitsValue ds : Int), rest)

def exponent? : List Char → Option (Option Int × List Char)
  | 'e' :: cs | 'E' :: cs => (signedDigits? cs).map fun (n, rest) => (some n, rest)
  | cs => some (none, cs)

def read? (cs : List Char) : Option (Numeral × List Char) := do
  let (negative, cs) := match cs with
    | '-' :: rest => (true, rest)
    | _ => (false, cs)
  let (whole, cs) ← whole? cs
  let (fraction, cs) ← fraction? cs
  let (exponent, cs) ← exponent? cs
  return (⟨negative, whole, fraction, exponent⟩, cs)

/-! ## The value -/

def most : Nat := 18446744073709551615

/-- The whole digits that fit, and how many are dropped. Once one is dropped all later ones are. -/
def gatherWhole (cs : List Char) : Nat × Nat :=
  cs.foldl (fun (sum, dropped) c =>
    let next := 10 * sum + digitValue c
    if dropped = 0 && next ≤ most then (next, 0) else (sum, dropped + 1)) (0, 0)

/-- More digits, and how many of them fit. The first that does not fit ends them. -/
def gatherFraction (sum : Nat) (cs : List Char) : Nat × Nat :=
  let (sum, taken, _) := cs.foldl (fun (sum, taken, full) c =>
    let next := 10 * sum + digitValue c
    if !full && next ≤ most then (next, taken + 1, false) else (sum, taken, true)) (sum, 0, false)
  (sum, taken)

def tenPower (n : Nat) : Option Double := Double.ofDecimal? false ⟨1, n⟩

/-- Powers past 10^308 are no doubles, so a smaller exponent is divided off in parts. -/
def scale : Nat → Double → Int → Option Double
  | 0, x, _ => some x
  | n + 1, x, exponent =>
    if 308 < exponent then if x.isZero then some x else none
    else if 0 ≤ exponent then (tenPower exponent.toNat).bind x.mul
    else if -308 ≤ exponent then (tenPower (-exponent).toNat).bind x.div
    else if x.isZero then some x
    else do scale n (← x.div (← tenPower 308)) (exponent + 308)

/-- Two divisions by 10^308 leave nothing of a number of 64 bits. -/
def toDouble? (negative : Bool) (sum : Nat) (exponent : Int) : Option Double :=
  (scale 4 (Whole.ofNat sum).toDouble exponent).map fun x =>
    if negative then x.neg else x

/-- The zero with a minus sign is a double, as is a negative number past the signed range. -/
def toNumber? (n : Numeral) : Option Number :=
  let (sum, dropped) := gatherWhole n.whole
  if n.fraction.isNone && n.exponent.isNone && dropped == 0 then
    if !n.negative then some (.ofNat sum)
    else if sum = 0 then some (.double (Double.zero true))
    else match Number.ofSigned? (-sum) with
      | some k => some k
      | none => some (.double (Whole.ofNat sum).toDouble.neg)
  else
    let (sum, taken) := gatherFraction sum (n.fraction.getD [])
    (toDouble? n.negative sum ((dropped : Int) - taken + n.exponent.getD 0)).map .double

end Numeral

end Stencil.Json

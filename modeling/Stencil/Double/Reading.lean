import Stencil.Double.Decimal
/-!
# Doubles from text

A wider grammar than that of literals: the point may stand at either end, and there are words for
what is no finite number.
-/

namespace Stencil.Double

inductive Reading where
  | finite (x : Double)
  | infinite (negative : Bool)
  | undefined

namespace Reading

def toDouble? : Reading → Option Double
  | .finite x => some x
  | _ => none

/-- The whole part, where what is past the range counts as its end. -/
def whole (range : Int) : Reading → Int
  | .finite x => max (-range) (min x.trunc (range - 1))
  | .infinite negative => if negative then -range else range - 1
  | .undefined => 0

end Reading

def digitsValue (cs : List Char) : Nat := cs.foldl (fun n c => 10 * n + (c.toNat - '0'.toNat)) 0

def readExponent? : List Char → Option Int
  | [] => some 0
  | c :: cs =>
    if c = 'e' || c = 'E' then
      let (negative, ds) := match cs with
        | '-' :: rest => (true, rest)
        | '+' :: rest => (false, rest)
        | _ => (false, cs)
      if ds.isEmpty || !ds.all Char.isDigit then none
      else some (if negative then -(digitsValue ds : Int) else digitsValue ds)
    else none

def readDecimal? (cs : List Char) : Option Decimal :=
  let (whole, rest) := cs.span Char.isDigit
  let (fraction, rest) := match rest with
    | '.' :: rest => rest.span Char.isDigit
    | _ => ([], rest)
  if whole.isEmpty && fraction.isEmpty then none
  else (readExponent? rest).map fun e => ⟨digitsValue (whole ++ fraction), e - fraction.length⟩

def readWord? (negative : Bool) (cs : List Char) : Option Reading :=
  let word := cs.map Char.toLower
  if word = ['i', 'n', 'f'] || word = "infinity".toList then some (.infinite negative)
  else if word = ['n', 'a', 'n'] then some .undefined
  else none

/-- A number past the largest double is infinite. -/
def read? (cs : List Char) : Option Reading :=
  let (negative, cs) := match cs with
    | '-' :: rest => (true, rest)
    | '+' :: rest => (false, rest)
    | _ => (false, cs)
  match readDecimal? cs with
  | some d =>
    match ofDecimal? negative d with
    | some x => some (.finite x)
    | none => some (.infinite negative)
  | none => readWord? negative cs

/-- The longest part at the front that is written like a number without exponent. -/
def numericPart (cs : List Char) : List Char :=
  let (sign, cs) := match cs with
    | '-' :: rest => (['-'], rest)
    | '+' :: rest => (['+'], rest)
    | _ => ([], cs)
  let (whole, rest) := cs.span Char.isDigit
  let fraction := match rest with
    | '.' :: rest =>
      match rest.takeWhile Char.isDigit with
      | [] => []
      | ds => '.' :: ds
    | _ => []
  sign ++ whole ++ fraction

end Stencil.Double

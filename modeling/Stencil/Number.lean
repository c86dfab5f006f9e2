import Stencil.Double.Decimal
import Stencil.Double.Power
/-!
# Numbers

A number is a whole number of 64 bits, signed or unsigned, or a double. Only whole numbers in the
signed range take part in exact arithmetic. The others stand for the nearest double there.
-/

namespace Stencil

/-- A whole number from -2^63 up to 2^64 - 1. -/
structure Whole where
  val : Int
  lower : -9223372036854775808 ≤ val
  upper : val < 18446744073709551616
deriving DecidableEq

namespace Whole

/-- A count stays at the end of the range when it is past it. -/
def ofNat (n : Nat) : Whole := ⟨min n 18446744073709551615, by omega, by omega⟩

def isSigned (w : Whole) : Bool := w.val < 9223372036854775808

theorem natAbs_lt (w : Whole) : w.val.natAbs < Double.twoTo 65 := by
  have := w.lower
  have := w.upper
  have : Double.twoTo 65 = 36893488147419103232 := rfl
  omega

def toDouble (w : Whole) : Double :=
  Double.ofWhole w.val w.natAbs_lt

end Whole

inductive Number where
  | whole (n : Whole)
  | double (x : Double)
deriving DecidableEq

namespace Number

def ofNat (n : Nat) : Number := .whole (.ofNat n)

def toDouble : Number → Double
  | .whole n => n.toDouble
  | .double x => x

def clampSigned (n : Int) : Whole :=
  ⟨max (-9223372036854775808) (min n 9223372036854775807), by omega, by omega⟩

def ofSigned? (n : Int) : Option Number :=
  if h : -9223372036854775808 ≤ n ∧ n < 9223372036854775808 then some (.whole ⟨n, h.1, by omega⟩) else none

/-- The exact value, if it is a whole number of the signed range written as one. -/
def signed? : Number → Option Int
  | .whole n => if n.isSigned then some n.val else none
  | .double _ => none

def isZero : Number → Bool
  | .whole n => n.val == 0
  | .double x => x.isZero

/-- Two whole numbers compare exactly. Otherwise the nearest doubles do. -/
def order : Number → Number → Ordering
  | .whole m, .whole n => compare m.val n.val
  | m, n => m.toDouble.order n.toDouble

/-! ## Text -/

/-- The spellings of doubles: which exponents are written positionally. -/
structure Layout where
  firstPositional : Int
  pastPositional : Int

/-- Positional from `0.00001` up to sixteen digits before the point. -/
def layout : Layout := ⟨-5, 16⟩

def zeros (n : Nat) : List Char := List.replicate n '0'

def pointed (digits : List Char) (whole : Int) : List Char :=
  if whole ≤ 0 then '0' :: '.' :: zeros (-whole).toNat ++ digits
  else
    let n := whole.toNat
    if digits.length ≤ n then digits ++ zeros (n - digits.length) ++ ['.', '0']
    else digits.take n ++ '.' :: digits.drop n

/-- One digit before the point, and the exponent always with a sign. -/
def scientific (digits : List Char) (exponent : Int) : List Char :=
  let mantissa := match digits with
    | [] => []
    | [d] => [d]
    | d :: rest => d :: '.' :: rest
  let sign := if exponent < 0 then '-' else '+'
  mantissa ++ 'e' :: sign :: Nat.toDigits 10 exponent.natAbs

def magnitudeText (x : Double) : List Char :=
  let d := x.shortest
  let digits := Nat.toDigits 10 d.coefficient
  let exponent := d.exponent + digits.length - 1
  if layout.firstPositional ≤ exponent ∧ exponent < layout.pastPositional then
    pointed digits (exponent + 1)
  else scientific digits exponent

def doubleText (x : Double) : List Char :=
  if x.negative then '-' :: magnitudeText x else magnitudeText x

def wholeText (n : Int) : List Char :=
  if n < 0 then '-' :: Nat.toDigits 10 n.natAbs else Nat.toDigits 10 n.natAbs

def text : Number → String
  | .whole n => String.ofList (wholeText n.val)
  | .double x => String.ofList (doubleText x)

end Number

end Stencil

import Stencil.Arguments
import Stencil.Double.Reading
import Stencil.Halt
import Stencil.Json.Printer
import Stencil.Text.Blank
import Stencil.Text.Case
import Stencil.Value.Arithmetic
import Stencil.Value.Order
/-!
# Builtin functions

The functions that templates can call by name, and those behind the operators. All are functions of
their arguments alone, apart from how values without an order are sorted.
-/

namespace Stencil

inductive Relation where
  | eq | ne | gt | ge | lt | le
deriving DecidableEq

def Relation.holds : Relation → Ordering → Bool
  | .eq, o => o == .eq
  | .ne, o => o != .eq
  | .gt, o => o == .gt
  | .ge, o => o != .lt
  | .lt, o => o == .lt
  | .le, o => o != .gt

inductive KindTest where
  | array | bool | float | integer | number | object | string
deriving DecidableEq

def KindTest.holds : KindTest → Value → Bool
  | .array, .array _ => true
  | .bool, .bool _ => true
  | .float, .number (.double _) => true
  | .integer, .number (.whole _) => true
  | .number, .number _ => true
  | .object, .object _ => true
  | .string, .string _ => true
  | _, _ => false

inductive Builtin where
  | item | capitalize | divisibleBy | even | existsIn | first | float | int | join | last | length
  | lower | max | min | odd | range | round | sort | upper
  | test (t : KindTest)
  | arith (op : Arith)
  | relation (r : Relation)
  | inside | not | bool
deriving DecidableEq

namespace Builtin

/-! ## The functions -/

def expectArray : Value → Except Fault (List Value)
  | .array items => .ok items
  | v => .error (.wrongValue .array v.kind)

def expectObject : Value → Except Fault (Dict Value)
  | .object fields => .ok fields
  | v => .error (.wrongValue .object v.kind)

def arrayIndex? (n : Number) (length : Nat) : Option Nat :=
  match n with
  | .whole w => if 0 ≤ w.val ∧ w.val < length then some w.val.toNat else none
  | .double _ => none

def itemOf : Value → Value → Except Fault Value
  | .array items, .number n =>
    match (arrayIndex? n items.length).bind (items[·]?) with
    | some v => .ok v
    | none => .error (.outOfBounds n items.length)
  | .object fields, .string key =>
    match Dict.find? fields key with
    | some v => .ok v
    | none => .error (.unknownKey key)
  | .array _, key => .error (.badIndex key.kind)
  | .object _, key => .error (.badKey key.kind)
  | v, _ => .error (.wrongValue .arrayOrObject v.kind)

def lengthOf : Value → Except Fault Nat
  | .string s => .ok s.length
  | .array items => .ok items.length
  | .object fields => .ok fields.length
  | v => .error (.wrongValue .collection v.kind)

def occurs (part : List Char) : List Char → Bool
  | [] => part.isEmpty
  | c :: cs => (dropMark? part (c :: cs)).isSome || occurs part cs

def contains : Value → Value → Except Fault Bool
  | .array items, v => .ok (items.any (Value.same · v))
  | .object fields, .string key => .ok (Dict.has fields key)
  | .object _, _ => .ok false
  | .string s, .string part => .ok (occurs part.toList s.toList)
  | .string _, v => .error (.wrongArgument .string v.kind)
  | v, _ => .error (.wrongValue .collection v.kind)

def toFloat : Value → Except Fault Value
  | .number n => .ok (.number (.double n.toDouble))
  | .string s =>
    match Double.read? (Blank.trim s.toList) with
    | some found => .ok (Value.ofDouble? found.toDouble?)
    | none => .error (.notFloat (.text s))
  | v => .error (.notFloat (.kind v.kind))

def toInt : Value → Except Fault Value
  | .number (.whole w) => .ok (.number (.whole w))
  | .number (.double x) => .ok (.ofSigned x.trunc)
  | .string s =>
    match Double.read? (Double.numericPart (Blank.trimStart s.toList)) with
    | some found => .ok (.ofSigned (found.whole 9223372036854775808))
    | none => .error (.notInteger (.text s))
  | v => .error (.notInteger (.kind v.kind))

/-- The nearest multiple of `10^-places`, found by scaling up and down again. -/
def scaledRound (x : Double) (places : Int) : Option Double := do
  let factor ← Double.tenToThe places
  (← (← x.mul factor).roundHalfAway).div factor

/-- Without places after the point, a result of the signed range is a whole number. -/
def roundTo (x : Double) (places : Int) : Value :=
  if 0 < places then Value.ofDouble? (scaledRound x (Min.min places 308))
  else match scaledRound x (Max.max places (-308)) with
    | some y => if y.steps < Double.twoTo 63 * Double.unit then .ofSigned y.trunc else .number (.double y)
    | none => .null

/-- Zero divides nothing here. -/
def divides (a b : Int) : Bool := b != 0 && a.tmod b == 0

/-- The most items that a list has memory for, which is addressed by 63 bits: one takes 32 bytes. -/
def capacity : Int := 288230376151711743

def counted (n : Int) : Except (Halt Fault) (List Value) :=
  if capacity < n then .error (.panic .capacity) else .ok ((List.range n.toNat).map Value.ofNat)

def sorted (sorting : Sorting) (items : List Value) : Except (Halt Fault) (List Value) :=
  match sorting.sort items with
  | some sorted => .ok sorted
  | none => .error (.panic .disorder)

def joined (sep : String) (items : List Value) : String := sep.intercalate (items.map Value.shown)

def apply (sorting : Sorting) (f : Builtin) (args : Arguments) : Except (Halt Fault) Value :=
  match f with
  | .item => do itemOf (← args.get 0) (← args.get 1)
  | .capitalize => do return .string (Letter.capitalText (← args.string 0))
  | .divisibleBy => do return .bool (divides (← args.integer 0) (← args.integer 1))
  | .even => do return .bool ((← args.integer 0) % 2 == 0)
  | .odd => do return .bool ((← args.integer 0) % 2 != 0)
  | .existsIn => do
    let fields ← expectObject (← args.get 0)
    return .bool (Dict.has fields (← args.string 1))
  | .first => do return (← expectArray (← args.get 0)).head?.getD .null
  | .last => do return (← expectArray (← args.get 0)).getLast?.getD .null
  | .float => do toFloat (← args.get 0)
  | .int => do toInt (← args.get 0)
  | .join => do
    let sep ← args.string 1
    return .string (joined sep (← expectArray (← args.get 0)))
  | .length => do return Value.ofNat (← lengthOf (← args.get 0))
  | .lower => do return .string (Letter.lowerText (← args.string 0))
  | .upper => do return .string (Letter.upperText (← args.string 0))
  | .max => do return Value.greatest (← expectArray (← args.get 0))
  | .min => do return Value.least (← expectArray (← args.get 0))
  | .range => do return .array (← counted (← args.integer 0))
  | .round => do
    let x ← args.double 0
    return roundTo x (← args.integer 1)
  | .sort => do return .array (← sorted sorting (← expectArray (← args.get 0)))
  | .test t => do return .bool (t.holds (← args.get 0))
  | .arith op => do op.apply (← args.get 0) (← args.get 1)
  | .relation r => do return .bool (r.holds ((← args.get 0).order (← args.get 1)))
  | .inside => do return .bool (← contains (← args.get 1) (← args.get 0))
  | .not => do return .bool (!(← args.get 0).truthy)
  | .bool => do return .bool (← args.get 0).truthy

/-! ## Names -/

def named : List (String × Nat × Builtin) :=
  [("at", 2, .item), ("capitalize", 1, .capitalize), ("divisibleBy", 2, .divisibleBy),
    ("even", 1, .even), ("existsIn", 2, .existsIn), ("first", 1, .first), ("float", 1, .float),
    ("int", 1, .int), ("isArray", 1, .test .array), ("isBoolean", 1, .test .bool),
    ("isFloat", 1, .test .float), ("isInteger", 1, .test .integer),
    ("isNumber", 1, .test .number), ("isObject", 1, .test .object),
    ("isString", 1, .test .string), ("join", 2, .join), ("last", 1, .last),
    ("length", 1, .length), ("lower", 1, .lower), ("max", 1, .max), ("min", 1, .min),
    ("odd", 1, .odd), ("range", 1, .range), ("round", 2, .round), ("sort", 1, .sort),
    ("upper", 1, .upper)]

end Builtin

end Stencil

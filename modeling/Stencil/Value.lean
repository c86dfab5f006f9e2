import Stencil.Dict
import Stencil.Number
/-!
# Values

The data that templates work on. Objects keep their entries in ascending order of the keys.
-/

namespace Stencil

inductive Value where
  | null
  | bool (b : Bool)
  | number (n : Number)
  | string (s : String)
  | array (items : List Value)
  | object (fields : List (String × Value))

namespace Value

instance : Inhabited Value := ⟨.null⟩

/-- A computation that has no double as its result gives null. -/
def ofDouble? : Option Double → Value
  | some x => .number (.double x)
  | none => .null

def ofNat (n : Nat) : Value := .number (.ofNat n)

def ofSigned (n : Int) : Value := .number (.whole (Number.clampSigned n))

/-! ## Kinds -/

inductive Kind where
  | null | bool | number | string | array | object
deriving DecidableEq

def Kind.name : Kind → String
  | .null => "null"
  | .bool => "bool"
  | .number => "number"
  | .string => "string"
  | .array => "array"
  | .object => "object"

def kind : Value → Kind
  | .null => .null
  | .bool _ => .bool
  | .number _ => .number
  | .string _ => .string
  | .array _ => .array
  | .object _ => .object

/-- Whether a condition holds for the value. Null, zero and whatever is empty do not count. -/
def truthy : Value → Bool
  | .null => false
  | .bool b => b
  | .number n => !n.isZero
  | .string s => !s.isEmpty
  | .array items => !items.isEmpty
  | .object fields => !fields.isEmpty

/-! ## Paths -/

/-- A position in an array: decimal digits, with a plus sign allowed in front. -/
def position? (segment : String) : Option Nat :=
  let digits := match segment.toList with
    | '+' :: rest => rest
    | cs => cs
  if digits.isEmpty || !digits.all Char.isDigit then none
  else
    let n := digits.foldl (fun n c => 10 * n + (c.toNat - '0'.toNat)) 0
    if n < 18446744073709551616 then some n else none

def step? (segment : String) : Value → Option Value
  | .object fields => Dict.find? fields segment
  | .array items => (position? segment).bind (items[·]?)
  | _ => none

def index? : List String → Value → Option Value
  | [], v => some v
  | segment :: rest, v => (v.step? segment).bind (index? rest)

/-! ## Well formed values -/

mutual

def WellFormed : Value → Prop
  | .array items => AllWellFormed items
  | .object fields => Dict.Sorted fields ∧ FieldsWellFormed fields
  | _ => True

def AllWellFormed : List Value → Prop
  | [] => True
  | v :: rest => v.WellFormed ∧ AllWellFormed rest

def FieldsWellFormed : List (String × Value) → Prop
  | [] => True
  | (_, v) :: rest => v.WellFormed ∧ FieldsWellFormed rest

end

end Value

end Stencil

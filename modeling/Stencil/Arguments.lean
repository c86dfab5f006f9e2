import Stencil.Fault
/-!
# Arguments

The values that a function is called with, and their readings as one kind or another.
-/

namespace Stencil

abbrev Arguments := List Value

namespace Arguments

def get (args : Arguments) (i : Nat) : Except Fault Value :=
  match args[i]? with
  | some v => .ok v
  | none => .error (.missingArgument i args.length)

def string (args : Arguments) (i : Nat) : Except Fault String :=
  match get args i with
  | .ok (.string s) => .ok s
  | .ok v => .error (.wrongArgument .string v.kind)
  | .error e => .error e

def bool (args : Arguments) (i : Nat) : Except Fault Bool :=
  match get args i with
  | .ok (.bool b) => .ok b
  | .ok v => .error (.wrongArgument .bool v.kind)
  | .error e => .error e

/-- The whole part of a number. Numbers up to 2^63 are taken, and what is past the signed range by
then counts as its end. -/
def wholePart? (n : Number) : Option Int :=
  match n.signed? with
  | some i => some i
  | none =>
    let x := n.toDouble
    if x.steps ≤ Double.twoTo 63 * Double.unit then some (Number.clampSigned x.trunc).val else none

def integer (args : Arguments) (i : Nat) : Except Fault Int :=
  match get args i with
  | .ok (.number n) =>
    match wholePart? n with
    | some k => .ok k
    | none => .error (.outOfRange n)
  | .ok v => .error (.wrongArgument .integer v.kind)
  | .error e => .error e

def double (args : Arguments) (i : Nat) : Except Fault Double :=
  match get args i with
  | .ok (.number n) => .ok n.toDouble
  | .ok v => .error (.wrongArgument .number v.kind)
  | .error e => .error e

def array (args : Arguments) (i : Nat) : Except Fault (List Value) :=
  match get args i with
  | .ok (.array items) => .ok items
  | .ok v => .error (.wrongArgument .array v.kind)
  | .error e => .error e

def object (args : Arguments) (i : Nat) : Except Fault (Dict Value) :=
  match get args i with
  | .ok (.object fields) => .ok fields
  | .ok v => .error (.wrongArgument .object v.kind)
  | .error e => .error e

end Arguments

end Stencil

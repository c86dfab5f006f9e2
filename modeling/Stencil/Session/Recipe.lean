import Stencil.Callback
/-!
# Recipes for callbacks

Callbacks as data, for sessions that are written down.
-/

namespace Stencil

inductive Recipe where
  | constant (v : Value)
  | all
  | count
  | isEmpty
  | get (i : Nat)
  | string (i : Nat)
  | integer (i : Nat)
  | double (i : Nat)
  | short (i : Nat)
  | bool (i : Nat)
  | array (i : Nat)
  | object (i : Nat)
  | integerOrNull (i : Nat)
  | repeated
  | sum
  | fail (kind : ErrorKind) (message : String)

namespace Recipe

/-- A text over and over, though no more than a thousand times. -/
def repeatText (s : String) (times : Int) : String :=
  String.join (List.replicate (min times.toNat 1000) s)

/-- The sum of some integers. What is past the signed range starts again at its other end. -/
def sumAll (args : Arguments) : Except Fault Int :=
  (List.range args.length).foldlM
    (fun total i => return (total + (← args.integer i)).bmod 18446744073709551616) 0

def run (r : Recipe) (args : Arguments) : Except Fault Value :=
  match r with
  | .constant v => .ok v
  | .all => .ok (.array args)
  | .count => .ok (.ofNat args.length)
  | .isEmpty => .ok (.bool args.isEmpty)
  | .get i => args.get i
  | .string i => return .string (← args.string i)
  | .integer i => return Value.ofSigned (← args.integer i)
  | .double i => return .number (.double (← args.double i))
  | .short i => return Value.ofDouble? (← args.double i).toShort
  | .bool i => return .bool (← args.bool i)
  | .array i => return .array (← args.array i)
  | .object i => return .object (← args.object i)
  | .integerOrNull i =>
    match args.integer i with
    | .ok n => .ok (.ofSigned n)
    | .error _ => .ok .null
  | .repeated => return .string (repeatText (← args.string 0) (← args.integer 1))
  | .sum => return Value.ofSigned (← sumAll args)
  | .fail kind message => .error (.custom kind message)

def callback (r : Recipe) : Callback := fun args => (r.run args).mapError .ofFault

end Recipe

end Stencil

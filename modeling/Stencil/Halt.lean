/-!
# Halts

What keeps some work from a result. An error is an answer, which callers pass on and can put aside. A
panic is none: nobody has thought of it, and it ends everything.
-/

namespace Stencil

inductive Panic where
  /-- A list of more items than memory has places for. -/
  | capacity
  /-- Values to sort that are in no order. -/
  | disorder
  /-- Padding wider than a text is ever padded to. -/
  | padding
  /-- A program that asks for what is not there. -/
  | stuck
deriving DecidableEq

inductive Halt (ε : Type) where
  | raised (e : ε)
  | panic (p : Panic)

namespace Halt

def map (f : ε → δ) : Halt ε → Halt δ
  | .raised e => .raised (f e)
  | .panic p => .panic p

/-- Work that knows no panics, among work that does. -/
instance : MonadLift (Except ε) (Except (Halt ε)) := ⟨Except.mapError .raised⟩

end Halt

end Stencil

import Stencil.Tag
/-!
# Code

The flat program of a template. An instruction takes its last argument from the stack or holds it
itself: a literal or a name that would be pushed right before an instruction becomes part of it. Text
and names stay in the source, and the program holds only the spans where they stand.
-/

namespace Stencil

inductive Operand where
  | top
  | literal (v : Value)
  | name (place : Span)

inductive Op where
  | text (place : Span)
  | emit
  | push
  | apply (f : Builtin) (args : Nat)
  | defined
  | fallback
  | call (name : Span) (args : Nat)
  | inclusion (key : String)
  | jump (target : Nat)
  | jumpUnless (target : Nat)
  /-- Leaves `false` and jumps, or drops the value and goes on. -/
  | jumpIfFalse (target : Nat)
  /-- Leaves `true` and jumps, or drops the value and goes on. -/
  | jumpIfTrue (target : Nat)
  /-- Enters a loop, or jumps behind it if there is nothing to go through. -/
  | loopStart (binder : Binder Span) (stop : Nat)
  | loopNext (start : Nat)
  | set (path : List String)

namespace Op

/-- Stands for a target that is not known yet. Which number it is makes no difference: every one has been
replaced when a program is complete, and no jump leads to the first instruction. -/
def unset : Nat := 0

def mapTarget (f : Nat → Nat) : Op → Op
  | .jump t => .jump (f t)
  | .jumpUnless t => .jumpUnless (f t)
  | .jumpIfFalse t => .jumpIfFalse (f t)
  | .jumpIfTrue t => .jumpIfTrue (f t)
  | .loopStart binder t => .loopStart binder (f t)
  | .loopNext t => .loopNext (f t)
  | op => op

end Op

structure Instr where
  op : Op
  operand : Operand
  span : Span

namespace Instr

def plain (op : Op) (span : Span) : Instr := ⟨op, .top, span⟩

def mapTarget (f : Nat → Nat) (i : Instr) : Instr := { i with op := i.op.mapTarget f }

def pushed? (i : Instr) : Option Operand :=
  match i.op with
  | .push => some i.operand
  | _ => none

end Instr

end Stencil

import Stencil.Text.Span
/-!
# Lines and columns

Lines are counted by the newlines before a place, columns by the characters since the last one.
Both start at one.
-/

namespace Stencil

def lastLine (cs : List Char) : List Char := (cs.reverse.takeWhile (· ≠ '\n')).reverse

structure Position where
  line : Nat
  column : Nat
deriving DecidableEq

namespace Position

def after (cs : List Char) : Position := ⟨cs.count '\n' + 1, (lastLine cs).length + 1⟩

/-- The position of a place. A place that is no boundary counts as the end. -/
def ofPlace (source : List Char) (place : Nat) : Position :=
  match cut? source place with
  | some (before, _) => after before
  | none => after source

end Position

/-- The lines of a source, without their ends. A carriage return belongs to the end only before a
newline. -/
def lines : List Char → List (List Char)
  | [] => []
  | '\n' :: cs => [] :: lines cs
  | '\r' :: '\n' :: cs => [] :: lines cs
  | c :: cs =>
    match lines cs with
    | [] => [[c]]
    | l :: ls => (c :: l) :: ls

end Stencil

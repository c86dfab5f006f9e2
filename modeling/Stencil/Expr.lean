import Stencil.Builtin
/-!
# Expressions

The tree of an expression. Every node knows the span that faults are reported at. Parentheses leave
no node behind, and a minus sign in front stands for a subtraction from zero.
-/

namespace Stencil

inductive Expr where
  | literal (v : Value) (span : Span)
  | name (word : Word)
  | apply (f : Builtin) (args : List Expr) (span : Span)
  /-- Whether a variable is there. Its name is given as a string. -/
  | defined (arg : Expr) (span : Span)
  /-- The first value, or the second one if the first is a name that stands for nothing. -/
  | fallback (first second : Expr) (span : Span)
  | call (name : Word) (args : List Expr) (span : Span)
  | both (left right : Expr) (span : Span)
  | either (left right : Expr) (span : Span)

namespace Expr

instance : Inhabited Expr := ⟨.literal .null (.point 0)⟩

def binary (f : Builtin) (left right : Expr) (span : Span) : Expr := .apply f [left, right] span

def negative (minus : Span) (e : Expr) (span : Span) : Expr :=
  binary (.arith .sub) (.literal (Value.ofNat 0) minus) e span

end Expr

end Stencil

import Stencil.Grammar
/-!
# Calls

What a call means is settled by the name and the number of arguments when the call is read. A call
that means nothing yet is left to the callbacks that are there when it is reached.
-/

namespace Stencil

inductive Callee where
  | builtin (f : Builtin)
  | defined
  | fallback
  | callback
deriving DecidableEq

namespace Callee

/-- The builtin functions, among them the two that look at more than their arguments' values. -/
def builtins : List (String × Nat × Callee) :=
  ("default", 2, .fallback) :: ("exists", 1, .defined) ::
    Builtin.named.map fun (name, arity, f) => (name, arity, .builtin f)

def builtin? (name : String) : Option (Nat × Callee) := builtins.lookup name

/-- A callback for exactly `n` arguments comes first, then the builtin, then a variadic callback. A
builtin's name with the wrong number of arguments is a fault, unless callbacks use the name too. -/
def resolve (callbacks : Registry) (name : String) (n : Nat) : Except Fault Callee :=
  if (callbacks.fixed? name n).isSome then .ok .callback
  else
    match builtin? name with
    | none => .ok .callback
    | some (arity, f) =>
      if arity = n then .ok f
      else if callbacks.has name then .ok .callback
      else .error (.wrongArity name arity n)

/-- The node of a call. The grammar never gives `default` and `exists` other numbers of arguments
than theirs. -/
def node (c : Callee) (name : Word) (args : List Expr) (span : Span) : Expr :=
  match c, args with
  | .builtin f, args => .apply f args span
  | .defined, [arg] => .defined arg span
  | .fallback, [first, second] => .fallback first second span
  | _, args => .call name args span

end Callee

end Stencil

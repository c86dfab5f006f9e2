import Stencil.Arguments
import Stencil.Dict
import Stencil.Error
/-!
# Callbacks

Functions of the engine's user. A name can stand for several of them, which differ in the number of
arguments that they take. Their errors may already have a place and the name of a template, if they
come from another engine.
-/

namespace Stencil

abbrev Callback := Arguments → Except Error Value

inductive Arity where
  | fixed (n : Nat)
  /-- Any number but none. -/
  | variadic
deriving DecidableEq

structure Overloads where
  /-- The callbacks for a fixed number of arguments, fewest first. -/
  fixed : List (Nat × Callback) := []
  variadic : Option Callback := none

namespace Overloads

def insertFixed (n : Nat) (f : Callback) : List (Nat × Callback) → List (Nat × Callback)
  | [] => [(n, f)]
  | (m, g) :: rest =>
    if n < m then (n, f) :: (m, g) :: rest
    else if n = m then (n, f) :: rest
    else (m, g) :: insertFixed n f rest

def add (o : Overloads) : Arity → Callback → Overloads
  | .fixed n, f => { o with fixed := insertFixed n f o.fixed }
  | .variadic, f => { o with variadic := some f }

def fixed? (o : Overloads) (n : Nat) : Option Callback := o.fixed.lookup n

def arities (o : Overloads) : List Arity :=
  o.fixed.map (fun (n, _) => .fixed n) ++ (o.variadic.map fun _ => .variadic).toList

end Overloads

abbrev Registry := Dict Overloads

namespace Registry

/-- Adds a callback. One of the same name and arity makes room for it. -/
def add (r : Registry) (name : String) (arity : Arity) (f : Callback) : Registry :=
  r.insert name (((r.find? name).getD {}).add arity f)

def fixed? (r : Registry) (name : String) (n : Nat) : Option Callback :=
  (r.find? name).bind (·.fixed? n)

def variadic? (r : Registry) (name : String) (n : Nat) : Option Callback :=
  if n = 0 then none else (r.find? name).bind (·.variadic)

/-- The callback for a call with `n` arguments. -/
def lookup (r : Registry) (name : String) (n : Nat) : Option Callback :=
  (r.fixed? name n).or (r.variadic? name n)

end Registry

end Stencil

import Stencil.Fault
import Stencil.Halt
import Stencil.Text.Position
import Stencil.Text.Width
/-!
# Errors

An error is a fault with a place and the name of a template. Both are filled in on the way out, and
only once: the first place and the first name stay.
-/

namespace Stencil

structure Error where
  fault : Fault
  place : Option (String × Span)
  template : Option String

namespace Error

def ofFault (f : Fault) : Error := ⟨f, none, none⟩

def located (f : Fault) (source : String) (span : Span) : Error := ⟨f, some (source, span), none⟩

def orAt (e : Error) (source : String) (span : Span) : Error :=
  { e with place := e.place.or (some (source, span)) }

def orIn (e : Error) (name : String) : Error := { e with template := e.template.or (some name) }

def orInOptional (e : Error) : Option String → Error
  | some name => e.orIn name
  | none => e

def position? (e : Error) : Option Position :=
  e.place.map fun (source, span) => Position.ofPlace source.toList span.start

/-! ## One line -/

def line (e : Error) : String :=
  let head := s!"{e.fault.kind.name} error: {e.fault.message}"
  match e.position? with
  | some p =>
    let tail := match e.template with
      | some name => s!" in template '{name}'"
      | none => ""
    s!"{head} at {p.line}:{p.column}{tail}"
  | none =>
    match e.fault.cause with
    | some cause => s!"{head}: {cause}"
    | none => head

/-! ## The excerpt -/

def spaces (n : Nat) : String := String.ofList (List.replicate n ' ')

/-- The width of padding is a number of 16 bits. -/
def widest : Nat := 65535

def padding (n : Nat) : Except Panic String :=
  if n ≤ widest then .ok (spaces n) else .error .padding

def sourceLine (source : List Char) (p : Position) : List Char :=
  ((lines source)[p.line - 1]?).getD []

def beforeCaret (source : List Char) (p : Position) : List Char :=
  (sourceLine source p).take (p.column - 1)

/-- The columns to underline: those of the first line of the span, and at least one. -/
def underline (source : List Char) (span : Span) : Nat :=
  max 1 (Width.text ((lines ((slice? source span).getD [])).head?.getD []))

def excerpt (e : Error) : Except Panic String :=
  match e.place with
  | none => .ok e.line
  | some (source, span) => do
    let cs := source.toList
    let p := Position.ofPlace cs span.start
    let number := toString p.line
    let margin ← padding number.length
    let name := e.template.getD "<anonymous>"
    let code := String.ofList (sourceLine cs p)
    let offset ← padding (Width.text (beforeCaret cs p))
    let carets := String.ofList (List.replicate (underline cs span) '^')
    return s!"\n {margin}--> {name}:{p.line}:{p.column}\n {margin} |\n {number} | {code}\n {margin} | {offset}{carets} {e.fault.message}\n"

end Error

end Stencil

import Stencil.Tag
import Stencil.Value
/-!
# Scopes

What names stand for while a template runs. Every template that is being rendered has a layer, with
a frame for each of its active loops and the variables that it has set. A name is looked for in the
frames from the innermost outwards, then in those variables, then in the layer of the template around
it, and last in the data. The first place that knows the first step of a path decides.
-/

namespace Stencil

/-! ## Loops -/

abbrev Row := List (String × Value)

structure Frame where
  row : Row
  upcoming : List Row
  /-- The number of rounds before this one. -/
  index : Nat
  /-- The record of the loop around this one, as it was when this one began. -/
  parent : Option Value

namespace Frame

def length (f : Frame) : Nat := f.index + 1 + f.upcoming.length

def loopRecord (f : Frame) : Value :=
  .object (("index", .ofNat f.index) :: ("index1", .ofNat (f.index + 1)) ::
    ("is_first", .bool (f.index == 0)) :: ("is_last", .bool f.upcoming.isEmpty) ::
      (f.parent.map fun p => ("parent", p)).toList)

/-- What the first step of a path stands for here. The variables hide the record. -/
def find? (f : Frame) (first : String) : Option Value :=
  (f.row.lookup first).or (if first = "loop" then some f.loopRecord else none)

def advance? (f : Frame) : Option Frame :=
  match f.upcoming with
  | [] => none
  | row :: rest => some { f with row := row, upcoming := rest, index := f.index + 1 }

end Frame

namespace Binder

/-- The rounds of a loop over a value. What is empty has no rounds, whatever the variables are. -/
def rows : Binder Word → Value → Except Fault (List Row)
  | _, .array [] => .ok []
  | _, .object [] => .ok []
  | .item name, .array items => .ok (items.map fun v => [(name.text, v)])
  | .pair key value, .object fields =>
    .ok (fields.map fun (k, v) => [(key.text, .string k), (value.text, v)])
  | .pair _ _, .array _ => .error .itemIntoTwo
  | .item _, .object _ => .error .entryIntoOne
  | _, v => .error (.notIterable v.kind)

def span : Binder Word → Span
  | .item name => name.span
  | .pair key value => key.span.join value.span

end Binder

/-! ## Layers -/

structure Layer where
  /-- The active loops, the innermost first. -/
  frames : List Frame
  locals : Dict Value

namespace Layer

def empty : Layer := ⟨[], []⟩

def find? (l : Layer) (first : String) : Option Value :=
  (l.frames.findSome? (·.find? first)).or (l.locals.find? first)

def enter (l : Layer) (f : Frame) : Layer := { l with frames := f :: l.frames }

end Layer

/-! ## Scopes -/

/-- The layers of the templates that are being rendered, the innermost first, and the data. -/
structure Scope where
  layers : List Layer
  data : Value

namespace Scope

def find? (s : Scope) (path : List String) : Option Value :=
  match path with
  | [] => none
  | first :: rest =>
    match s.layers.findSome? (·.find? first) with
    | some v => v.index? rest
    | none => s.data.index? path

def loopRecord? (s : Scope) : Option Value :=
  s.layers.findSome? fun l => l.frames.head?.map (·.loopRecord)

end Scope

/-! ## Assignment -/

namespace Dict

/-- Stores a value at a path. What stands in its way and is no object gives way to one. -/
def assign (d : Dict Value) : List String → Value → Dict Value
  | [], _ => d
  | [last], v => d.insert last v
  | first :: second :: rest, v =>
    let inner := match d.find? first with
      | some (.object fields) => fields
      | _ => []
    d.insert first (.object (assign inner (second :: rest) v))

end Dict

namespace Layer

/-- Gives the layer a copy of what a name stands for around it, if it has no variable of that name. -/
def seed (l : Layer) (around : Scope) (first : String) : Layer :=
  if l.locals.has first then l
  else
    match around.find? [first] with
    | some v => { l with locals := l.locals.insert first v }
    | none => l

/-- Assigns to a path. A path of several steps changes a copy of what its first step stands for
around the layer. -/
def set (l : Layer) (around : Scope) (path : List String) (v : Value) : Layer :=
  let l := match path with
    | first :: _ :: _ => l.seed around first
    | _ => l
  { l with locals := l.locals.assign path v }

end Layer

end Stencil

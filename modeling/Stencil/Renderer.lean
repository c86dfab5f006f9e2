import Stencil.Machine
import Stencil.Template
/-!
# Rendering

A renderer knows which page an include means and how deep includes may be nested. Every page that is
being rendered is a visit of its own. At an include it waits until the included page, which runs in a
new layer over its scope, is through. `Renderer.step` carries out one instruction of the innermost
page, and rendering goes from step to step until one of them is the last.
-/

namespace Stencil

/-! ## Visits -/

structure Visit where
  page : Page
  /-- The name that it was entered under. A template without a name can only be the first. -/
  name : Option String
  place : Nat
  stack : List Value
  layer : Layer

def Visit.start (name : Option String) (p : Page) : Visit := ⟨p, name, 0, [], .empty⟩

structure Rendering where
  current : Visit
  /-- The visits that wait at an include, the innermost first. -/
  callers : List Visit
  out : Output

namespace Rendering

def start (name : Option String) (p : Page) (out : Output) : Rendering := ⟨.start name p, [], out⟩

def around (s : Rendering) (data : Value) : Scope := ⟨s.callers.map (·.layer), data⟩

def machine (s : Rendering) : Machine.State := ⟨s.current.stack, s.current.layer, s.out⟩

def goTo (s : Rendering) (place : Nat) (m : Machine.State) : Rendering :=
  ⟨{ s.current with place := place, stack := m.stack, layer := m.layer }, s.callers, m.out⟩

/-- An error on its way out through all pages. The first one with a name gives it that name. -/
def sign (s : Rendering) (e : Error) : Error :=
  (s.current :: s.callers).foldl (fun e v => e.orInOptional v.name) e

end Rendering

/-! ## Renderers -/

structure Renderer where
  functions : Registry
  sorting : Sorting
  paths : PathStyle
  page? : String → Option Page
  /-- The most includes that may be active at once. -/
  limit : Nat
  program : Page → Array Instr

namespace Renderer

inductive Turn where
  | going (s : Rendering)
  | ended (o : Outcome Output)

def context (r : Renderer) (p : Page) (around : Scope) : Machine.Context :=
  ⟨p.source, r.functions, r.sorting, r.paths, around⟩

def fail (s : Rendering) (h : Halt Error) (out : Output) : Turn := .ended (.failed (h.map s.sign) out)

def enter (r : Renderer) (s : Rendering) (key : String) (span : Span) : Turn :=
  if r.limit ≤ s.callers.length then
    fail s (.raised (.located (.includeDepth r.limit) s.current.page.source span)) s.out
  else
    match r.page? key with
    | none => fail s (.raised (.located (.unknownTemplate key) s.current.page.source span)) s.out
    | some p => .going ⟨.start (some key) p, s.current :: s.callers, s.out⟩

def leave (s : Rendering) : Turn :=
  match s.callers with
  | [] => .ended (.done s.out)
  | v :: rest => .going ⟨{ v with place := v.place + 1 }, rest, s.out⟩

def follow (r : Renderer) (s : Rendering) (span : Span) : Outcome Machine.Move → Turn
  | .done (.next m) => .going (s.goTo (s.current.place + 1) m)
  | .done (.jump target m) => .going (s.goTo target m)
  | .done (.insert key m) => r.enter (s.goTo s.current.place m) key span
  | .failed h out => fail s h out
  | .stuck out => .ended (.stuck out)

def step (r : Renderer) (data : Value) (s : Rendering) : Turn :=
  match (r.program s.current.page)[s.current.place]? with
  | none => leave s
  | some i =>
    r.follow s i.span (Machine.exec (r.context s.current.page (s.around data)) i s.machine)

def Turn.toSum : Turn → Rendering ⊕ Outcome Output
  | .going s => .inl s
  | .ended o => .inr o

/-- Goes on from a state to the end. Nothing in here says that there is one. -/
def finish (r : Renderer) (data : Value) (s : Rendering) : Outcome Output :=
  haveI : Nonempty (Outcome Output) := ⟨.stuck s.out⟩
  repeatM (m := Id) (fun s => (r.step data s).toSum) s

def run (r : Renderer) (name : Option String) (p : Page) (data : Value) (out : Output) :
    Outcome Output :=
  r.finish data (.start name p out)

end Renderer

end Stencil

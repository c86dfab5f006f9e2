import Stencil.Grammar.Outline
import Stencil.Loader
import Stencil.Path
import Stencil.Renderer
import Stencil.Token.Scan
/-!
# Engines

An engine holds what templates are compiled and rendered with. Compiling a template settles what its
includes mean: it gathers their pages, one for each key, so that later changes of the engine do not
matter to the template.
-/

namespace Stencil

structure Engine where
  markup : Markup := .standard
  functions : Registry := []
  sorting : Sorting := .stable
  templates : Dict Template := []
  loader : Option Loader
  maxDepth : Nat := 64
  /-- Whether operands become part of the instructions that take them. -/
  folding : Bool := true

structure Gathering where
  includes : Dict Page
  /-- The paths whose pages are not complete yet. -/
  inProgress : List String
  /-- The paths that the loader has been asked for, the last one first. -/
  asked : List String

namespace Gathering

def start (name : Option String) : Gathering := ⟨[], name.toList, []⟩

def ask (s : Gathering) (path : String) : Gathering := { s with asked := path :: s.asked }

/-- Adds a registered template under a key, and whatever it includes where there is no page of that
key yet. -/
def addTemplate (s : Gathering) (key : String) (t : Template) : Gathering :=
  { s with includes := (s.includes.mergeNew t.includes).insert key t.page }

end Gathering

namespace Engine

/-! ## Includes -/

/-- The registered template that an include means, with the key for it: the name as it is written
comes before the path. -/
def registered? (e : Engine) (name path : String) : Option (String × Template) :=
  ((e.templates.find? name).map (name, ·)).or ((e.templates.find? path).map (path, ·))

abbrev Compile := String → String → Gathering → Except Error Page × Gathering

def load (e : Engine) (compile : Compile) (path : String) (s : Gathering) :
    Except Error String × Gathering :=
  match e.loader with
  | none => (.error (.ofFault (.noLoader path)), s)
  | some loader =>
    match loader.answer path with
    | .error err => (.error err, s.ask path)
    | .ok source =>
      let (result, t) := compile source (Path.directory path)
        { s.ask path with inProgress := path :: s.inProgress }
      let t := { t with inProgress := s.inProgress }
      match result with
      | .error err => (.error (err.orIn path), t)
      | .ok page => (.ok path, { t with includes := t.includes.insert path page })

/-- The key of an include. Pages that are there or in progress come first, then the registered
templates, then the loader. -/
def resolve (e : Engine) (compile : Compile) (base name : String) (s : Gathering) :
    Except Error String × Gathering :=
  let path := Path.normal base name
  if s.includes.has path || s.inProgress.contains path then (.ok path, s)
  else
    match e.registered? name path with
    | some (key, t) => (.ok key, s.addTemplate key t)
    | none => e.load compile path s

def resolveAll (e : Engine) (compile : Compile) (source base : String) :
    List Tag → Gathering → Except Error (List Tag) × Gathering
  | [], s => (.ok [], s)
  | t :: ts, s =>
    match t with
    | .inclusion name place span =>
      match e.resolve compile base name s with
      | (.error err, s) => (.error (err.orAt source place), s)
      | (.ok key, s) =>
        match e.resolveAll compile source base ts s with
        | (.ok ts, s) => (.ok (.inclusion key place span :: ts), s)
        | r => r
    | t =>
      match e.resolveAll compile source base ts s with
      | (.ok ts, s) => (.ok (t :: ts), s)
      | r => r

/-! ## Compiling -/

def grammar (e : Engine) (source : String) : Grammar := .of source e.markup.paths e.functions

def outline (e : Engine) (source : String) : Outline :=
  (e.grammar source).outline (Token.scan e.markup source)

/-- Compiles one source. What its tags include comes before the fault that ends them. -/
def compileWith (e : Engine) (compile : Compile) (source base : String) (s : Gathering) :
    Except Error Page × Gathering :=
  let outline := e.outline source
  match e.resolveAll compile source base outline.tags s with
  | (.error err, s) => (.error err, s)
  | (.ok tags, s) =>
    match outline.fault with
    | some r => (.error (.located r.fault source r.span), s)
    | none => (.ok (.of e.folding source tags), s)

/-- Compiles a source where at most `n` more pages can be in progress. -/
def page (e : Engine) : Nat → Compile
  | 0 => fun _ _ s => (.error (.ofFault .broken), s)
  | n + 1 => e.compileWith (e.page n)

/-- Every page in progress is one that the loader has, but for the first. -/
def fuel (e : Engine) : Nat :=
  match e.loader with
  | some loader => loader.reach + 1
  | none => 1

structure Asking (α : Type) where
  result : Except Error α
  asked : List String := []

def compileNamed (e : Engine) (name : Option String) (source base : String) : Asking Template :=
  match e.page e.fuel source base (.start name) with
  | (.ok page, s) => ⟨.ok ⟨page, s.includes⟩, s.asked.reverse⟩
  | (.error err, s) => ⟨.error (err.orInOptional name), s.asked.reverse⟩

def compile (e : Engine) (source : String) : Asking Template := e.compileNamed none source ""

def compileFile (e : Engine) (path : String) : Asking Template :=
  match e.loader with
  | none => ⟨.error (.ofFault (.noLoaderForFile path)), []⟩
  | some loader =>
    match loader.answer path with
    | .error err => ⟨.error (err.orIn path), [path]⟩
    | .ok source =>
      let compiled := e.compileNamed (some path) source (Path.directory path)
      { compiled with asked := path :: compiled.asked }

def addTemplate (e : Engine) (name source : String) : Asking Engine :=
  let compiled := e.compileNamed (some name) source (Path.directory name)
  ⟨compiled.result.map fun t => { e with templates := e.templates.insert name t }, compiled.asked⟩

def addCallback (e : Engine) (name : String) (arity : Arity) (f : Callback) : Engine :=
  { e with functions := e.functions.add name arity f }

/-! ## Rendering -/

/-- The page that a key means in the course of rendering a template. -/
def page? (e : Engine) (name : Option String) (t : Template) (key : String) : Option Page :=
  (t.includes.find? key).or
    ((if name = some key then some t.page else none).or ((e.templates.find? key).map (·.page)))

def renderer (e : Engine) (name : Option String) (t : Template) : Renderer where
  functions := e.functions
  sorting := e.sorting
  paths := e.markup.paths
  page? := e.page? name t
  limit := e.maxDepth
  program := Page.code

def renderInto (e : Engine) (name : Option String) (t : Template) (data : Value) (out : Output) :
    Outcome Output :=
  (e.renderer name t).run name t.page data out

def render (e : Engine) (name : Option String) (t : Template) (data : Value) :
    Except (Halt Error) String :=
  match e.renderInto name t data (.memory "") with
  | .done out => .ok out.taken.text
  | .failed h _ => .error h
  | .stuck _ => .error (.panic .stuck)

/-- The error that rendering into a sink has in the end: that of the sink, if it has refused something. -/
def ofSink (out : Output) (err : Error) : Error :=
  match out.failure? with
  | some cause => .ofFault (.unwritten cause)
  | none => err

/-- What arrives at a sink, and how rendering into it ends. -/
def renderTo (e : Engine) (name : Option String) (t : Template) (data : Value) (k : Sink) :
    Sink × Except (Halt Error) Unit :=
  match e.renderInto name t data (.sink k none) with
  | .done out => (out.taken, .ok ())
  | .failed h out => (out.taken, .error (h.map (ofSink out)))
  | .stuck out => (out.taken, .error (.panic .stuck))

end Engine

end Stencil

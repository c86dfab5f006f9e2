import Stencil.Disk
import Stencil.Inspect
import Stencil.Session.Recipe
/-!
# Sessions

A session is an engine, a disk and a supply of sources, and steps that use or change them. Steps that
fail leave the session as it was.
-/

namespace Stencil

inductive Supply where
  | nothing
  | disk (root : String)
  /-- Sources given by path, some of which cannot be read. -/
  | shelf (sources : Dict String) (failing : Dict Fault)

namespace Supply

def shelfAnswer (sources : Dict String) (failing : Dict Fault) (path : String) :
    Except Error String :=
  match failing.find? path with
  | some fault => .error (.ofFault fault)
  | none =>
    match sources.find? path with
    | some source => .ok source
    | none => .error (.ofFault (.custom .file s!"no such file '{path}'"))

def loader (s : Supply) (d : Disk) : Option Loader :=
  match s with
  | .nothing => none
  | .disk root => some (d.loader root)
  | .shelf sources failing => some ⟨shelfAnswer sources failing, sources.length⟩

def isWatched : Supply → Bool
  | .shelf _ _ => true
  | _ => false

end Supply

inductive Target where
  | registered (name : String)
  | source (text : String)

inductive Step where
  | addTemplate (name source : String)
  | getTemplate (name : String)
  | compile (source : String)
  | compileFile (path : String)
  | render (source : String) (data : Value)
  | renderMany (source : String) (data : List Value)
  /-- Rendering with data that is no value. -/
  | renderBadData (source : String)
  | renderTemplate (name : String) (data : Value)
  | renderFile (path : String) (data : Value)
  | renderTo (target : Target) (data : Value) (limit : Option Nat)
  | supply (s : Supply)
  | writeFile (path : String) (content : ByteArray)
  | maxDepth (n : Nat)
  | addCallback (name : String) (arity : Arity) (recipe : Recipe)
  | showEngine
  | showTemplate (source : String)
  | showRegistered (name : String)
  | showError (source : String)

inductive Answer where
  | null
  | text (s : String)
  | template (name source : String)
  | texts (results : List (Except (Halt Error) String))
  | arrived (result : Except (Halt Error) Unit) (written : String)
  | missing
  | failed (h : Halt Error)

structure Session where
  engine : Engine
  disk : Disk
  supply : Supply

namespace Session

def start (m : Markup) : Session :=
  let supply := Supply.disk "."
  ⟨{ markup := m, loader := supply.loader [] }, [], supply⟩

def restock (s : Session) (disk : Disk) (supply : Supply) : Session :=
  ⟨{ s.engine with loader := supply.loader disk }, disk, supply⟩

def ofText : Except (Halt Error) String → Answer
  | .ok text => .text text
  | .error h => .failed h

def withTemplate (a : Engine.Asking Template) (f : Template → Answer) : Answer × List String :=
  match a.result with
  | .ok t => (f t, a.asked)
  | .error e => (.failed (.raised e), a.asked)

def withRegistered (s : Session) (name : String) (f : Template → Answer) : Answer :=
  match s.engine.templates.find? name with
  | some t => f t
  | none => .missing

def arrived (s : Session) (name : Option String) (data : Value) (limit : Option Nat)
    (t : Template) : Answer :=
  let sink := match limit with
    | some n => Sink.limited n "sink closed"
    | none => Sink.unlimited "sink closed"
  let (sink, result) := s.engine.renderTo name t data sink
  .arrived result sink.shown

/-- What a step answers and asks the loader for, when it changes nothing. -/
def look (s : Session) : Step → Answer × List String
  | .getTemplate name => (s.withRegistered name fun t => .template name t.page.source, [])
  | .compile source => withTemplate (s.engine.compile source) fun t => .text t.page.source
  | .compileFile path => withTemplate (s.engine.compileFile path) fun t => .text t.page.source
  | .render source data =>
    withTemplate (s.engine.compile source) fun t => ofText (s.engine.render none t data)
  | .renderMany source data =>
    withTemplate (s.engine.compile source) fun t => .texts (data.map (s.engine.render none t))
  | .renderBadData source =>
    withTemplate (s.engine.compile source) fun _ => .failed (.raised (.ofFault .badData))
  | .renderTemplate name data =>
    (s.withRegistered name fun t => ofText (s.engine.render (some name) t data), [])
  | .renderFile path data =>
    withTemplate (s.engine.compileFile path) fun t => ofText (s.engine.render (some path) t data)
  | .renderTo (.registered name) data limit =>
    (s.withRegistered name (s.arrived (some name) data limit), [])
  | .renderTo (.source text) data limit =>
    match s.engine.compile text with
    | ⟨.ok t, asked⟩ => (s.arrived none data limit t, asked)
    | ⟨.error e, asked⟩ => (.arrived (.error (.raised e)) "", asked)
  | .showEngine => (.text (Inspect.engine s.engine), [])
  | .showTemplate source =>
    withTemplate (s.engine.compile source) fun t => .text (Inspect.template none t)
  | .showRegistered name => (s.withRegistered name fun t => .text (Inspect.registered name t), [])
  | .showError source =>
    match s.engine.compile source with
    | ⟨.ok _, asked⟩ => (.null, asked)
    | ⟨.error e, asked⟩ => (ofText (e.excerpt.mapError .panic), asked)
  | _ => (.null, [])

/-- What a step answers and asks the loader for, and the session after it. -/
def step (s : Session) (step : Step) : (Answer × List String) × Session :=
  match step with
  | .addTemplate name source =>
    match s.engine.addTemplate name source with
    | ⟨.ok e, asked⟩ => ((.null, asked), { s with engine := e })
    | ⟨.error e, asked⟩ => ((.failed (.raised e), asked), s)
  | .supply supply => ((.null, []), s.restock s.disk supply)
  | .writeFile path content => ((.null, []), s.restock (s.disk.write path content) s.supply)
  | .maxDepth n => ((.null, []), { s with engine := { s.engine with maxDepth := n } })
  | .addCallback name arity recipe =>
    ((.null, []), { s with engine := s.engine.addCallback name arity recipe.callback })
  | step => (s.look step, s)

def run (s : Session) : List Step → List (Answer × List String)
  | [] => []
  | st :: rest =>
    let ((answer, asked), next) := s.step st
    (answer, if s.supply.isWatched then asked else []) :: next.run rest

end Session

end Stencil

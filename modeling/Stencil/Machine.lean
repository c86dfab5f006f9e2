import Stencil.Callback
import Stencil.Code
import Stencil.Error
import Stencil.Json.Printer
import Stencil.Output
import Stencil.Scope
/-!
# The machine

What one instruction of a template does. It works on the values of unfinished expressions, on the layer
of the template and on the output, and says where to go on: at the next instruction, at another place
before or after it, or with another template in between. A program that asks for what is not there,
for a value from the empty stack say, is stuck.
-/

namespace Stencil

/-- How some work ends: with a result, with an error or a panic, or not at all. -/
inductive Outcome (α : Type) where
  | done (a : α)
  | failed (h : Halt Error) (out : Output)
  | stuck (out : Output)

namespace Outcome

@[inline] def bind (o : Outcome α) (f : α → Outcome β) : Outcome β :=
  match o with
  | .done a => f a
  | .failed h out => .failed h out
  | .stuck out => .stuck out

def orIn (o : Outcome α) (name : String) : Outcome α :=
  match o with
  | .failed h out => .failed (h.map (·.orIn name)) out
  | o => o

def orInOptional (o : Outcome α) : Option String → Outcome α
  | some name => o.orIn name
  | none => o

end Outcome

namespace Machine

structure Context where
  source : String
  functions : Registry
  sorting : Sorting
  paths : PathStyle
  around : Scope

structure State where
  /-- The values of unfinished expressions, the last one first. -/
  stack : List Value
  layer : Layer
  out : Output

namespace Context

def text? (c : Context) (place : Span) : Option String :=
  (slice? c.source.toList place).map String.ofList

def binder? (c : Context) : Binder Span → Option (Binder Word)
  | .item name => do return .item ⟨← c.text? name, name⟩
  | .pair key value => do return .pair ⟨← c.text? key, key⟩ ⟨← c.text? value, value⟩

def scope (c : Context) (l : Layer) : Scope := { c.around with layers := l :: c.around.layers }

def fault (c : Context) (f : Fault) (span : Span) : Error := .located f c.source span

def place (c : Context) (span : Span) (e : Error) : Error := e.orAt c.source span

/-- What a name stands for. A name out of scope can be that of a callback without arguments. -/
def lookup (c : Context) (l : Layer) (name : String) (span : Span) :
    Except (Halt Error) Value :=
  match (c.scope l).find? (c.paths.split name) with
  | some v => .ok v
  | none =>
    match c.functions.fixed? name 0 with
    | none => .error (.raised (c.fault (.unknownVariable name) span))
    | some f =>
      match f [] with
      | .ok v => .ok v
      | .error e => .error (.raised (c.place span e))

def call (c : Context) (name : String) (args : Arguments) (span : Span) : Except (Halt Error) Value :=
  match c.functions.lookup name args.length with
  | none => .error (.raised (c.fault (.unknownFunction name args.length) span))
  | some f =>
    match f args with
    | .ok v => .ok v
    | .error e => .error (.raised (c.place span e))

def apply (c : Context) (f : Builtin) (args : Arguments) (span : Span) : Except (Halt Error) Value :=
  match f.apply c.sorting args with
  | .ok v => .ok v
  | .error h => .error (h.map fun e => c.fault e span)

def isDefined (c : Context) (l : Layer) (v : Value) (span : Span) : Except (Halt Error) Value :=
  match Arguments.string [v] 0 with
  | .ok name => .ok (.bool ((c.scope l).find? (c.paths.split name)).isSome)
  | .error e => .error (.raised (c.fault e span))

def frame? (c : Context) (l : Layer) (binder : Binder Word) (v : Value) (span : Span) :
    Except (Halt Error) (Option Frame) :=
  match binder.rows v with
  | .ok [] => .ok none
  | .ok (row :: rest) => .ok (some ⟨row, rest, 0, (c.scope l).loopRecord?⟩)
  | .error (.notIterable found) => .error (.raised (c.fault (.notIterable found) span))
  | .error e => .error (.raised (c.fault e binder.span))

end Context

namespace State

def push (s : State) (v : Value) : State := { s with stack := v :: s.stack }

def ofExcept (s : State) : Except (Halt Error) α → Outcome α
  | .ok a => .done a
  | .error h => .failed h s.out

def demand (s : State) : Option α → Outcome α
  | some a => .done a
  | none => .stuck s.out

def pop (s : State) : Outcome (Value × State) :=
  match s.stack with
  | v :: rest => .done (v, { s with stack := rest })
  | [] => .stuck s.out

def fetch (c : Context) (s : State) : Operand → Outcome (Value × State)
  | .top => s.pop
  | .literal v => .done (v, s)
  | .name place =>
    (s.demand (c.text? place)).bind fun text =>
      s.ofExcept ((c.lookup s.layer text place).map (·, s))

def fetchAll (c : Context) (s : State) (o : Operand) : Nat → Outcome (Arguments × State)
  | 0 => .done ([], s)
  | n + 1 =>
    (s.fetch c o).bind fun (v, s) =>
      if n ≤ s.stack.length then
        .done ((s.stack.take n).reverse ++ [v], { s with stack := s.stack.drop n })
      else .stuck s.out

def write (s : State) (text : String) : Outcome State :=
  match s.out.write text with
  | (true, out) => .done { s with out := out }
  | (false, out) => .failed (.raised (.ofFault .unformatted)) out

def turn (s : State) : Outcome (Bool × State) :=
  match s.layer.frames with
  | [] => .stuck s.out
  | f :: rest =>
    match f.advance? with
    | some f => .done (true, { s with layer := { s.layer with frames := f :: rest } })
    | none => .done (false, { s with layer := { s.layer with frames := rest } })

end State

/-! ## One instruction -/

inductive Move where
  | next (s : State)
  | jump (target : Nat) (s : State)
  /-- At the next instruction, once the page that the key means is through. -/
  | insert (key : String) (s : State)

def Move.ofResult (s : State) (r : Except (Halt Error) Value) : Outcome Move :=
  s.ofExcept (r.map fun v => .next (s.push v))

/-- What `and` and `or` do after their first value: if it decides, it is the result. -/
def Move.decide (s : State) (decisive : Bool) (target : Nat) : Outcome Move :=
  s.pop.bind fun (v, s) =>
    .done (if v.truthy = decisive then .jump target (s.push (.bool decisive)) else .next s)

/-- Enters a loop, or goes behind it if it has no rounds. -/
def Move.enter (s : State) (stop : Nat) : Option Frame → Move
  | none => .jump stop s
  | some f => .next { s with layer := s.layer.enter f }

def exec (c : Context) (i : Instr) (s : State) : Outcome Move :=
  match i.op with
  | .text place =>
    (s.demand (c.text? place)).bind fun text => (s.write text).bind fun s => .done (.next s)
  | .emit => (s.fetch c i.operand).bind fun (v, s) => (s.write v.shown).bind fun s => .done (.next s)
  | .push => (s.fetch c i.operand).bind fun (v, s) => .done (.next (s.push v))
  | .apply f n =>
    (s.fetchAll c i.operand n).bind fun (args, s) => Move.ofResult s (c.apply f args i.span)
  | .defined =>
    (s.fetch c i.operand).bind fun (v, s) => Move.ofResult s (c.isDefined s.layer v i.span)
  | .fallback =>
    s.pop.bind fun (second, s) =>
      match i.operand with
      | .top => s.pop.bind fun (first, s) => .done (.next (s.push first))
      | .literal v => .done (.next (s.push v))
      | .name place =>
        (s.demand (c.text? place)).bind fun text =>
          match c.lookup s.layer text place with
          | .ok v => .done (.next (s.push v))
          | .error _ => .done (.next (s.push second))
  | .call place n =>
    (s.demand (c.text? place)).bind fun name =>
      (s.fetchAll c i.operand n).bind fun (args, s) => Move.ofResult s (c.call name args i.span)
  | .inclusion key => .done (.insert key s)
  | .jump t => .done (.jump t s)
  | .jumpUnless t =>
    (s.fetch c i.operand).bind fun (v, s) => .done (if v.truthy then .next s else .jump t s)
  | .jumpIfFalse t => Move.decide s false t
  | .jumpIfTrue t => Move.decide s true t
  | .loopStart binder stop =>
    (s.fetch c i.operand).bind fun (v, s) =>
      (s.demand (c.binder? binder)).bind fun binder =>
        (s.ofExcept (c.frame? s.layer binder v i.span)).bind fun f => .done (Move.enter s stop f)
  | .loopNext start =>
    s.turn.bind fun (more, s) => .done (if more then .jump start s else .next s)
  | .set path =>
    (s.fetch c i.operand).bind fun (v, s) =>
      .done (.next { s with layer := s.layer.set c.around path v })

end Machine

end Stencil

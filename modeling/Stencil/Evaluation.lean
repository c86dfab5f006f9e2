import Stencil.Renderer
/-!
# What a template means

The output of a template, read directly off its tree, without instructions, a stack or jumps. The
machine has to come to the same end with the program of the tree.
-/

namespace Stencil

open Machine

/-! ## Expressions -/

namespace Expr

mutual

/-- The value of an expression. Of `and` and `or` the second part counts only if the first one leaves
the result open. A fallback is evaluated in any case, before the name that it stands in for. -/
def eval (c : Context) (l : Layer) : Expr → Except (Halt Error) Value
  | .literal v _ => .ok v
  | .name word => c.lookup l word.text word.span
  | .apply f args span => do c.apply f (← evalAll c l args) span
  | .defined arg span => do c.isDefined l (← eval c l arg) span
  | .fallback first second _ =>
    match first with
    | .name word => do
      let v ← eval c l second
      match c.lookup l word.text word.span with
      | .ok found => return found
      | .error _ => return v
    | .literal v _ => do
      let _ ← eval c l second
      return v
    | _ => do
      let v ← eval c l first
      let _ ← eval c l second
      return v
  | .call callee args span => do c.call callee.text (← evalAll c l args) span
  | .both left right _ => do
    if (← eval c l left).truthy then return .bool (← eval c l right).truthy else return .bool false
  | .either left right _ => do
    if (← eval c l left).truthy then return .bool true else return .bool (← eval c l right).truthy

def evalAll (c : Context) (l : Layer) : List Expr → Except (Halt Error) (List Value)
  | [] => .ok []
  | e :: rest => do
    let v ← eval c l e
    return v :: (← evalAll c l rest)

end

end Expr

/-! ## Bodies -/

namespace Body

structure Progress where
  layer : Layer
  out : Output

namespace Progress

def ofExcept (p : Progress) : Except (Halt Error) α → Outcome α
  | .ok a => .done a
  | .error h => .failed h p.out

def write (p : Progress) (text : String) : Outcome Progress :=
  match p.out.write text with
  | (true, out) => .done { p with out := out }
  | (false, out) => .failed (.raised (.ofFault .unformatted)) out

end Progress

abbrev Insertion := String → Span → Layer → Output → Outcome Output

/-- Runs a body once for each row, in the loop that has `index` rounds behind it. What the body sets
is there in the next round and after the loop. -/
def eachRow (body : Progress → Outcome Progress) (frames : List Frame) (parent : Option Value) :
    Nat → List Row → Progress → Outcome Progress
  | _, [], p => .done { p with layer := { p.layer with frames := frames } }
  | index, row :: rest, p =>
    (body { p with layer := { p.layer with frames := ⟨row, rest, index, parent⟩ :: frames } }).bind
      (eachRow body frames parent (index + 1) rest)

def eval (c : Context) (insert : Insertion) : Body → Progress → Outcome Progress
  | .done, p => .done p
  | .text s _ rest, p => (p.write s).bind (eval c insert rest)
  | .output e _ rest, p =>
    (p.ofExcept (e.eval c p.layer)).bind fun v => (p.write v.shown).bind (eval c insert rest)
  | .cond test yes rest, p =>
    (p.ofExcept (test.expr.eval c p.layer)).bind fun v =>
      (if v.truthy then eval c insert yes p else .done p).bind (eval c insert rest)
  | .choice test yes _ no rest, p =>
    (p.ofExcept (test.expr.eval c p.layer)).bind fun v =>
      (if v.truthy then eval c insert yes p else eval c insert no p).bind (eval c insert rest)
  | .loop binder source body _ rest, p =>
    (p.ofExcept (source.expr.eval c p.layer)).bind fun v =>
      (p.ofExcept (c.frame? p.layer binder v source.span)).bind fun
        | none => eval c insert rest p
        | some f =>
          (eachRow (eval c insert body) p.layer.frames f.parent 0 (f.row :: f.upcoming) p).bind
            (eval c insert rest)
  | .inclusion key span rest, p =>
    (insert key span p.layer p.out).bind fun out => eval c insert rest { p with out := out }
  | .set path e _ rest, p =>
    (p.ofExcept (e.eval c p.layer)).bind fun v =>
      eval c insert rest { p with layer := p.layer.set c.around path v }

def evalAll (c : Context) (insert : Insertion) (b : Body) (out : Output) : Outcome Output :=
  (b.eval c insert ⟨.empty, out⟩).bind fun p => .done p.out

end Body

/-! ## Pages -/

namespace Renderer

/-- What a page means where `depth` more includes may be nested. -/
def eval (r : Renderer) : Nat → Page → Scope → Output → Outcome Output
  | 0, p, around, out =>
    p.body.evalAll (r.context p around)
      (fun _ span _ out => .failed (.raised (.located (.includeDepth r.limit) p.source span)) out) out
  | depth + 1, p, around, out =>
    p.body.evalAll (r.context p around)
      (fun key span layer out =>
        match r.page? key with
        | none => .failed (.raised (.located (.unknownTemplate key) p.source span)) out
        | some q =>
          (r.eval depth q ((r.context p around).scope layer) out).orIn key) out

/-- What a page means that nothing includes. -/
def meaning (r : Renderer) (name : Option String) (p : Page) (data : Value) (out : Output) :
    Outcome Output :=
  (r.eval r.limit p ⟨[], data⟩ out).orInOptional name

end Renderer

end Stencil

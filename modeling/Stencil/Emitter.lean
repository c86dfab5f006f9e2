import Stencil.Code
/-!
# Emitting code

The program of a template is emitted tag by tag, in a single pass. Jumps whose targets are not known
yet are kept with the blocks that they belong to, and get their targets once these are reached.
-/

namespace Stencil

structure Emitter where
  /-- Whether an operand that was pushed last becomes part of the instruction that takes it. -/
  folding : Bool
  code : Array Instr
  /-- Instructions before this place must not be changed into others, since a jump lands right after
  them. -/
  barrier : Nat

namespace Emitter

def start (folding : Bool) : Emitter := ⟨folding, #[], 0⟩

def here (c : Emitter) : Nat := c.code.size

def push (c : Emitter) (i : Instr) : Emitter := { c with code := c.code.push i }

/-- The operand that was pushed last, if it can become part of the next instruction. -/
def loose? (c : Emitter) : Option Operand :=
  if c.folding && c.barrier < c.here then c.code.back?.bind Instr.pushed? else none

def pushTaking (c : Emitter) (op : Op) (args : Nat) (span : Span) : Emitter :=
  match args, c.loose? with
  | _ + 1, some o => { c with code := c.code.pop.push ⟨op, o, span⟩ }
  | _, _ => c.push (.plain op span)

def land (c : Emitter) (jump : Nat) : Emitter :=
  { c with code := c.code.modify jump (·.mapTarget fun _ => c.here), barrier := c.here }

/-- Whether a single value has been pushed since some place, and nothing else done. -/
def isSinglePush (c : Emitter) (place : Nat) : Bool :=
  place + 1 == c.here && (c.code[place]?.bind Instr.pushed?).isSome

def lower (place target : Nat) : Nat := if place < target then target - 1 else target

def remove (c : Emitter) (place : Nat) : Emitter :=
  { c with
    code := (c.code.eraseIdxIfInBounds place).map (·.mapTarget (lower place))
    barrier := if place < c.barrier then c.barrier - 1 else c.barrier }

/-! ## Expressions -/

/-- The call of `default` whose arguments were emitted from some place on. A first argument that is a
single name or literal is taken out, to be looked up last. -/
def pushFallback (c : Emitter) (place : Nat) (single : Bool) (span : Span) : Emitter :=
  match if single then c.code[place]? else none with
  | some first => (c.remove place).push ⟨.fallback, first.operand, span⟩
  | none => c.push (.plain .fallback span)

mutual

def expr : Emitter → Expr → Emitter
  | c, .literal v span => c.push ⟨.push, .literal v, span⟩
  | c, .name word => c.push ⟨.push, .name word.span, word.span⟩
  | c, .apply f args span => (exprs c args).pushTaking (.apply f args.length) args.length span
  | c, .defined arg span => (expr c arg).pushTaking .defined 1 span
  | c, .fallback first second span =>
    let d := expr c first
    (expr d second).pushFallback c.here (d.isSinglePush c.here) span
  | c, .call name args span => (exprs c args).pushTaking (.call name.span args.length) args.length span
  | c, .both left right span =>
    let d := expr c left
    let e := expr (d.push (.plain (.jumpIfFalse Op.unset) span)) right
    (e.land d.here).pushTaking (.apply .bool 1) 1 span
  | c, .either left right span =>
    let d := expr c left
    let e := expr (d.push (.plain (.jumpIfTrue Op.unset) span)) right
    (e.land d.here).pushTaking (.apply .bool 1) 1 span

def exprs : Emitter → List Expr → Emitter
  | c, [] => c
  | c, e :: rest => exprs (expr c e) rest

end

/-! ## Tags -/

/-- An open block, with the jumps that wait for their targets. -/
inductive Pending where
  /-- The jump over the current branch, and the jumps behind the whole block. -/
  | cond (test : Option Nat) (ends : List Nat)
  | loop (start : Nat)

def branch (c : Emitter) (test : Part) (ends : List Nat) : Emitter × Pending :=
  let c := c.expr test.expr
  (c.push (.plain (.jumpUnless Op.unset) test.span), .cond (some c.here) ends)

def leaveBranch (c : Emitter) (test : Option Nat) (span : Span) : Emitter :=
  test.toList.foldl land (c.push (.plain (.jump Op.unset) span))

def tag (c : Emitter) (opened : List Pending) (t : Tag) : Emitter × List Pending :=
  match t, opened with
  | .text _ span, _ => (c.push (.plain (.text span) span), opened)
  | .output e span, _ => ((c.expr e).pushTaking .emit 1 span, opened)
  | .cond test, _ =>
    let (c, block) := c.branch test []
    (c, block :: opened)
  | .otherwise span, .cond test ends :: rest =>
    (c.leaveBranch test span, .cond none (ends ++ [c.here]) :: rest)
  | .otherwiseIf span part, .cond test ends :: rest =>
    let (d, block) := (c.leaveBranch test span).branch part (ends ++ [c.here])
    (d, block :: rest)
  | .endIf, .cond test ends :: rest => ((test.toList ++ ends).foldl land c, rest)
  | .loop binder source, _ =>
    let c := (c.expr source.expr).pushTaking (.loopStart (binder.map (·.span)) Op.unset) 1 source.span
    (c, .loop (c.here - 1) :: opened)
  | .endFor span, .loop start :: rest =>
    ((c.push (.plain (.loopNext (start + 1)) span)).land start, rest)
  | .inclusion key _ span, _ => (c.push (.plain (.inclusion key) span), opened)
  | .set path e span, _ => ((c.expr e).pushTaking (.set path) 1 span, opened)
  | _, _ => (c, opened)

def tags (c : Emitter) (opened : List Pending) (ts : List Tag) : Emitter × List Pending :=
  ts.foldl (fun (c, opened) t => c.tag opened t) (c, opened)

def program (folding : Bool) (ts : List Tag) : Array Instr := ((start folding).tags [] ts).1.code

end Emitter

end Stencil

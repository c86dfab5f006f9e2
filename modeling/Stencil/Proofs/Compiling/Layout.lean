import Stencil.Body
import Stencil.Code
/-!
# Where the code of a tree stands

The program that the tree of a template has in the end, without holes and without a pass over the
tags. `Body.code` places the code of a tree at an address, so that jumps can name their targets.
-/

namespace Stencil

abbrev Code := List Instr

namespace Code

variable (here : Nat) (a b c d : Code) (x y : Instr)

theorem place_cons : here + (a ++ x :: b).length = here + a.length + 1 + b.length := by
  rw [List.length_append, List.length_cons]
  omega

theorem place_append :
    here + (a ++ x :: b ++ c).length = here + a.length + 1 + b.length + c.length := by
  rw [List.length_append, ← Nat.add_assoc, place_cons]

theorem place_append_cons : here + (a ++ x :: b ++ y :: c).length =
    here + a.length + 1 + b.length + 1 + c.length := by
  rw [List.length_append, ← Nat.add_assoc, place_cons, List.length_cons]
  omega

theorem place_append_append : here + (a ++ x :: b ++ y :: c ++ d).length =
    here + a.length + 1 + b.length + 1 + c.length + d.length := by
  rw [List.length_append, ← Nat.add_assoc, place_append_cons]

end Code

/-! ## Expressions -/

namespace Expr

def operand? : Expr → Option Operand
  | .literal v _ => some (.literal v)
  | .name word => some (.name word.span)
  | _ => none

/-- The operand that an expression becomes in the instruction after it, if operands are folded. -/
def folded? (folding : Bool) (e : Expr) : Option Operand :=
  if folding then e.operand? else none

def shortcut (op : Nat → Op) (here : Nat) (a : Code) (second : Nat → Code) (span : Span) : Code :=
  let b := second (here + a.length + 1)
  a ++ .plain (op (here + a.length + 1 + b.length)) span :: b ++ [.plain (.apply .bool 1) span]

mutual

/-- The code of an expression at an address. It leaves one value on the stack. -/
def code (folding : Bool) : Nat → Expr → Code
  | _, .literal v span => [⟨.push, .literal v, span⟩]
  | _, .name word => [⟨.push, .name word.span, word.span⟩]
  | here, .apply f args span => codeArgs folding here args (.plain (.apply f args.length) span)
  | here, .defined arg span =>
    match arg.folded? folding with
    | some o => [⟨.defined, o, span⟩]
    | none => code folding here arg ++ [.plain .defined span]
  | here, .fallback first second span =>
    match first.operand? with
    | some o => code folding here second ++ [⟨.fallback, o, span⟩]
    | none =>
      let a := code folding here first
      a ++ code folding (here + a.length) second ++ [.plain .fallback span]
  | here, .call callee args span =>
    codeArgs folding here args (.plain (.call callee.span args.length) span)
  | here, .both left right span =>
    shortcut .jumpIfFalse here (code folding here left) (fun n => code folding n right) span
  | here, .either left right span =>
    shortcut .jumpIfTrue here (code folding here left) (fun n => code folding n right) span

def codeArgs (folding : Bool) : Nat → List Expr → Instr → Code
  | _, [], last => [last]
  | here, [e], last =>
    match e.folded? folding with
    | some o => [{ last with operand := o }]
    | none => code folding here e ++ [last]
  | here, e :: rest, last =>
    let a := code folding here e
    a ++ codeArgs folding (here + a.length) rest last

end

def feed (folding : Bool) (here : Nat) (e : Expr) : Code × Operand :=
  match e.folded? folding with
  | some o => ([], o)
  | none => (e.code folding here, .top)

variable {folding : Bool} {here : Nat} {e : Expr} {rest : List Expr} {last : Instr}

theorem codeArgs_folded {o : Operand} (h : e.folded? folding = some o) :
    codeArgs folding here [e] last = [{ last with operand := o }] := by
  simp [codeArgs, h]

theorem codeArgs_cons (h : ¬ (rest = [] ∧ (e.folded? folding).isSome)) :
    codeArgs folding here (e :: rest) last =
      e.code folding here ++ codeArgs folding (here + (e.code folding here).length) rest last := by
  cases rest with
  | nil =>
    have hf : e.folded? folding = none := by simpa using h
    simp [codeArgs, hf]
  | cons e' rest => simp [codeArgs]

theorem code_defined (arg : Expr) (span : Span) :
    (Expr.defined arg span).code folding here =
      (arg.feed folding here).1 ++ [⟨.defined, (arg.feed folding here).2, span⟩] := by
  rw [code, feed]
  cases arg.folded? folding <;> rfl

end Expr

/-! ## Bodies -/

namespace Body

/-- The code of a body at an address. -/
def code (folding : Bool) : Nat → Body → Code
  | _, .done => []
  | here, .text _ span rest => .plain (.text span) span :: code folding (here + 1) rest
  | here, .output e span rest =>
    let (a, o) := e.feed folding here
    a ++ ⟨.emit, o, span⟩ :: code folding (here + a.length + 1) rest
  | here, .cond test yes rest =>
    let a := test.expr.code folding here
    let b := code folding (here + a.length + 1) yes
    let stop := here + a.length + 1 + b.length
    a ++ .plain (.jumpUnless stop) test.span :: b ++ code folding stop rest
  | here, .choice test yes elseSpan no rest =>
    let a := test.expr.code folding here
    let b := code folding (here + a.length + 1) yes
    let other := here + a.length + 1 + b.length + 1
    let c := code folding other no
    let stop := other + c.length
    a ++ .plain (.jumpUnless other) test.span :: b ++ .plain (.jump stop) elseSpan :: c ++
      code folding stop rest
  | here, .loop binder source body endSpan rest =>
    let (a, o) := source.expr.feed folding here
    let start := here + a.length + 1
    let b := code folding start body
    let stop := start + b.length + 1
    a ++ ⟨.loopStart (binder.map (·.span)) stop, o, source.span⟩ :: b ++
      .plain (.loopNext start) endSpan :: code folding stop rest
  | here, .inclusion key span rest =>
    .plain (.inclusion key) span :: code folding (here + 1) rest
  | here, .set path e span rest =>
    let (a, o) := e.feed folding here
    a ++ ⟨.set path, o, span⟩ :: code folding (here + a.length + 1) rest

variable {folding : Bool} {here : Nat}

theorem code_output (e : Expr) (span : Span) (rest : Body) :
    (output e span rest).code folding here =
      (e.feed folding here).1 ++ ⟨.emit, (e.feed folding here).2, span⟩ ::
        rest.code folding (here + (e.feed folding here).1.length + 1) := by
  rw [code]

theorem code_set (path : List String) (e : Expr) (span : Span) (rest : Body) :
    (set path e span rest).code folding here =
      (e.feed folding here).1 ++ ⟨.set path, (e.feed folding here).2, span⟩ ::
        rest.code folding (here + (e.feed folding here).1.length + 1) := by
  rw [code]

theorem code_loop (binder : Binder Word) (source : Part) (body : Body) (span : Span) (rest : Body) :
    (loop binder source body span rest).code folding here =
      (source.expr.feed folding here).1 ++
        ⟨.loopStart (binder.map (·.span)) (here + (source.expr.feed folding here).1.length + 1 +
            (body.code folding (here + (source.expr.feed folding here).1.length + 1)).length + 1),
          (source.expr.feed folding here).2, source.span⟩ ::
        body.code folding (here + (source.expr.feed folding here).1.length + 1) ++
        Instr.plain (.loopNext (here + (source.expr.feed folding here).1.length + 1)) span ::
        rest.code folding (here + (source.expr.feed folding here).1.length + 1 +
          (body.code folding (here + (source.expr.feed folding here).1.length + 1)).length + 1) := by
  rw [code]

end Body

end Stencil

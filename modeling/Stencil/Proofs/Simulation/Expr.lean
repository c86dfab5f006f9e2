import Stencil.Evaluation
import Stencil.Proofs.Placement.Tree
import Stencil.Proofs.Rendering.Steps
/-!
# The code of an expression computes its value

Wherever the code of an expression stands in the program of the current page, a rendering that comes
to its start goes on behind it with the value on the stack, or ends with the error of the evaluation.
-/

namespace Stencil

open Machine

/-! ## Values on the stack -/

namespace Machine.State

variable {c : Context} {m : State}

def yield (m : State) (x : Except (Halt Error) Value) : Outcome State :=
  (m.ofExcept x).bind fun v => .done (m.push v)

theorem ofResult_eq (x : Except (Halt Error) Value) :
    Move.ofResult m x = (m.yield x).bind fun m => .done (.next m) := by
  cases x <;> rfl

def pushAll (m : State) (vs : List Value) : State := { m with stack := vs.reverse ++ m.stack }

@[simp] theorem push_pushAll (vs : List Value) (v : Value) :
    (m.pushAll vs).push v = m.pushAll (vs ++ [v]) := by
  simp [pushAll, push]

theorem fetchAll_pushAll (vs : List Value) :
    (m.pushAll vs).fetchAll c .top vs.length = .done (vs, m) := by
  rcases vs.eq_nil_or_concat with rfl | ⟨vs, v, rfl⟩
  · rfl
  · simp [fetchAll, fetch, pop, Outcome.bind, pushAll]

theorem decide_push (v : Value) (decisive : Bool) (target : Nat) :
    Move.decide (m.push v) decisive target =
      .done (if v.truthy = decisive then .jump target (m.push (.bool decisive)) else .next m) := rfl

/-! ## Operands -/

def feed (c : Context) (m : State) (e : Expr) (f : Value × State → Outcome α) : Outcome α :=
  (m.ofExcept (e.eval c m.layer)).bind fun v => f (v, m)

theorem fetch_operand {e : Expr} {o : Operand} (h : e.operand? = some o)
    (he : e.Placed c.source.toList) (f : Value × State → Outcome α) :
    (m.fetch c o).bind f = m.feed c e f := by
  cases e with
  | literal v span =>
    cases h
    rfl
  | name word =>
    cases h
    simp only [fetch, feed, Expr.eval, Context.text?_of_covers he, demand_some, Outcome.bind_done]
    cases c.lookup m.layer word.text word.span <;> rfl
  | _ => cases h

theorem fetch_folded {folding : Bool} {e : Expr} {o : Operand} (h : e.folded? folding = some o)
    (he : e.Placed c.source.toList) (f : Value × State → Outcome α) :
    (m.fetch c o).bind f = m.feed c e f := by
  unfold Expr.folded? at h
  split at h
  · exact fetch_operand h he f
  · cases h

theorem fetchAll_folded {folding : Bool} {e : Expr} {o : Operand}
    (h : e.folded? folding = some o) (hp : e.Placed c.source.toList) (vs : List Value) :
    (m.pushAll vs).fetchAll c o (vs.length + 1) =
      m.feed c e fun (v, m) => .done (vs ++ [v], m) := by
  rw [fetchAll, fetch_folded h hp]
  cases he : e.eval c m.layer <;> simp [feed, he, ofExcept, Outcome.bind, pushAll]

end Machine.State

namespace Expr

/-! ## Parts that may not count -/

variable {c : Context} {l : Layer}

theorem eval_both (left right : Expr) (span : Span) :
    (Expr.both left right span).eval c l = (do
      if (← left.eval c l).truthy = false then return .bool false
      else return .bool (← right.eval c l).truthy) := by
  rw [eval]
  cases left.eval c l with
  | error err => rfl
  | ok v => cases hv : v.truthy <;> simp [hv]

theorem eval_either (left right : Expr) (span : Span) :
    (Expr.either left right span).eval c l = (do
      if (← left.eval c l).truthy = true then return .bool true
      else return .bool (← right.eval c l).truthy) := by
  rw [eval]

theorem eval_fallback_operand {first second : Expr} {span : Span} {o : Operand}
    (h : first.operand? = some o) :
    (Expr.fallback first second span).eval c l = (do
      let v ← second.eval c l
      match first.eval c l with
      | .ok found => return found
      | .error _ => return v) := by
  cases first with
  | literal v span' => rfl
  | name word => rfl
  | _ => cases h

theorem eval_fallback {first second : Expr} {span : Span} (h : first.operand? = none) :
    (Expr.fallback first second span).eval c l = (do
      let v ← first.eval c l
      let _ ← second.eval c l
      return v) := by
  cases first with
  | literal | name => cases h
  | _ => rfl

end Expr

/-! ## Expressions -/

namespace Renderer

variable {r : Renderer} {data : Value} {s : Rendering} {folding : Bool}

/-- That the code of an expression computes its value. -/
def Computes (r : Renderer) (data : Value) (s : Rendering) (folding : Bool) (e : Expr) : Prop :=
  ∀ (here : Nat) (m : Machine.State),
    Code.At (r.program s.current.page) here (e.code folding here) →
    r.finish data (s.goTo here m) =
      r.finishAt data s (here + (e.code folding here).length)
        (m.yield (e.eval (r.contextAt data s) m.layer))

theorem finish_feed {e : Expr} (he : r.Computes data s folding e)
    (hp : e.Placed s.current.page.source.toList) {here : Nat} {op : Op} {span : Span}
    (k : Value × Machine.State → Outcome Move)
    (hexec : ∀ o m, exec (r.contextAt data s) ⟨op, o, span⟩ m =
      (State.fetch (r.contextAt data s) m o).bind k)
    (h : Code.At (r.program s.current.page) here
      ((e.feed folding here).1 ++ [⟨op, (e.feed folding here).2, span⟩])) (m : Machine.State) :
    r.finish data (s.goTo here m) =
      r.finishTurn data (r.follow (s.goTo (here + (e.feed folding here).1.length) m) span
        (m.feed (r.contextAt data s) e k)) := by
  unfold Expr.feed at h ⊢
  cases ho : e.folded? folding with
  | some o =>
    rw [ho] at h
    rw [finish_goTo h.head, hexec, State.fetch_folded ho hp]
    rfl
  | none =>
    rw [ho] at h
    rw [he here m h.left, State.feed]
    cases e.eval (r.contextAt data s) m.layer with
    | error err => rfl
    | ok v =>
      rw [State.ofExcept_ok, Outcome.bind_done, follow_goTo (m.push v)]
      exact (finish_goTo h.last).trans (by rw [hexec]; rfl)

theorem finish_truth {here : Nat} {span : Span}
    (h : (r.program s.current.page)[here]? = some (.plain (.apply .bool 1) span))
    (m : Machine.State) (v : Value) :
    r.finish data (s.goTo here (m.push v)) =
      r.finish data (s.goTo (here + 1) (m.push (.bool v.truthy))) :=
  finish_next h (.done (m.push (.bool v.truthy))) rfl

theorem finish_shortcut {left right : Expr} (hl : r.Computes data s folding left)
    (hr : r.Computes data s folding right) {here : Nat} {op : Nat → Op} {span : Span}
    {decisive : Bool} (hexec : ∀ t m, exec (r.contextAt data s) (.plain (op t) span) m =
      Move.decide m decisive t)
    (h : Code.At (r.program s.current.page) here (Expr.shortcut op here (left.code folding here)
      (fun n => right.code folding n) span)) (m : Machine.State) :
    r.finish data (s.goTo here m) =
      r.finishAt data s (here + (Expr.shortcut op here (left.code folding here)
          (fun n => right.code folding n) span).length)
        (m.yield (do
          if (← left.eval (r.contextAt data s) m.layer).truthy = decisive then
            return .bool decisive
          else return .bool (← right.eval (r.contextAt data s) m.layer).truthy)) := by
  rw [Expr.shortcut] at h ⊢
  rw [Code.place_append, List.length_singleton]
  have htruth := h.right.head
  rw [Code.place_cons] at htruth
  rw [hl here m h.left.left]
  cases left.eval (r.contextAt data s) m.layer with
  | error err => rfl
  | ok v =>
    have hstep : r.finish data (s.goTo _ (m.push v)) = _ := finish_goTo h.left.last
    rw [hexec, State.decide_push] at hstep
    refine hstep.trans ?_
    rw [except_ok_bind]
    by_cases hv : v.truthy = decisive
    · -- The first value decides: it goes to the end as a truth value.
      rw [if_pos hv, if_pos hv]
      exact finish_truth htruth m (.bool decisive)
    · rw [if_neg hv, if_neg hv]
      refine (hr _ m h.left.right.tail).trans ?_
      cases right.eval (r.contextAt data s) m.layer with
      | error err => rfl
      | ok w => exact finish_truth htruth m w

theorem finish_fallback {first second : Expr} {o : Operand} (ho : first.operand? = some o)
    (hp : first.Placed s.current.page.source.toList) (hs : r.Computes data s folding second)
    {here : Nat} {span : Span} (h : Code.At (r.program s.current.page) here
      (second.code folding here ++ [(⟨.fallback, o, span⟩ : Instr)])) (m : Machine.State) :
    r.finish data (s.goTo here m) =
      r.finishAt data s (here + (second.code folding here ++ [(⟨.fallback, o, span⟩ : Instr)]).length)
        (m.yield ((Expr.fallback first second span).eval (r.contextAt data s) m.layer)) := by
  rw [hs here m h.left, List.length_append, List.length_singleton, ← Nat.add_assoc,
    Expr.eval_fallback_operand ho]
  cases second.eval (r.contextAt data s) m.layer with
  | error err => rfl
  | ok w =>
    refine finish_next h.last _ ?_
    simp only [exec, State.pop_push, Outcome.bind_done]
    cases first with
    | literal v span =>
      cases ho
      rfl
    | name word =>
      cases ho
      have htext : (r.contextAt data s).text? word.span = some word.text :=
        Context.text?_of_covers hp
      simp only [Expr.eval, htext, State.demand_some, Outcome.bind_done]
      cases (r.contextAt data s).lookup m.layer word.text word.span <;> rfl
    | _ => cases ho

mutual

theorem finish_code : ∀ e : Expr, e.Placed s.current.page.source.toList →
    r.Computes data s folding e
  | .literal v span, hp, here, m, h => by
    rw [Expr.code] at h
    exact finish_next h.head _ rfl
  | .name word, hp, here, m, h => by
    rw [Expr.code] at h
    refine finish_next h.head _ ?_
    have htext : (r.contextAt data s).text? word.span = some word.text :=
      Context.text?_of_covers hp
    simp only [exec, State.fetch, Expr.eval, htext, State.demand_some, Outcome.bind_done]
    cases (r.contextAt data s).lookup m.layer word.text word.span <;> rfl
  | .apply f args span, hp, here, m, h => by
    rw [Expr.code] at h ⊢
    exact finish_codeArgs args hp.1 here _ span [] m
      (fun vs => (r.contextAt data s).apply f vs span) (by intro o m; simp [exec]) h
  | .defined arg span, hp, here, m, h => by
    rw [Expr.code_defined] at h ⊢
    rw [finish_feed (finish_code arg hp.1) hp.1 (fun (v, m) =>
      Move.ofResult m ((r.contextAt data s).isDefined m.layer v span)) (fun o m => rfl) h]
    rw [List.length_append, List.length_singleton, ← Nat.add_assoc, State.feed, Expr.eval]
    cases arg.eval (r.contextAt data s) m.layer with
    | error err => rfl
    | ok v =>
      simp only [State.ofExcept_ok, Outcome.bind_done, State.ofResult_eq]
      exact finishTurn_next span _
  | .fallback first second span, hp, here, m, h => by
    have hfirst := finish_code first hp.1
    have hsecond := finish_code second hp.2.1
    rw [Expr.code] at h ⊢
    cases ho : first.operand? with
    | some o =>
      simp only [ho] at h ⊢
      exact finish_fallback ho hp.1 hsecond h m
    | none =>
      simp only [ho] at h ⊢
      rw [hfirst here m h.left.left, Expr.eval_fallback ho]
      cases first.eval (r.contextAt data s) m.layer with
      | error err => rfl
      | ok v =>
        refine (hsecond _ (m.push v) h.left.right).trans ?_
        have hlayer : (m.push v).layer = m.layer := rfl
        rw [hlayer, except_ok_bind]
        cases second.eval (r.contextAt data s) m.layer with
        | error err => rfl
        | ok w =>
          have hlast := h.right.head
          rw [List.length_append, ← Nat.add_assoc] at hlast
          refine (finish_next hlast (.done (m.push v)) rfl).trans ?_
          simp [finishAt, State.yield, Nat.add_assoc]
  | .call callee args span, hp, here, m, h => by
    rw [Expr.code] at h ⊢
    have htext : (r.contextAt data s).text? callee.span = some callee.text :=
      Context.text?_of_covers hp.1
    exact finish_codeArgs args hp.2.1 here _ span [] m
      (fun vs => (r.contextAt data s).call callee.text vs span)
      (by intro o m; simp [exec, htext]) h
  | .both left right span, hp, here, m, h => by
    rw [Expr.code] at h ⊢
    rw [Expr.eval_both]
    exact finish_shortcut (finish_code left hp.1) (finish_code right hp.2.1) (fun t m => rfl) h m
  | .either left right span, hp, here, m, h => by
    rw [Expr.code] at h ⊢
    rw [Expr.eval_either]
    exact finish_shortcut (finish_code left hp.1) (finish_code right hp.2.1) (fun t m => rfl) h m

theorem finish_codeArgs : ∀ (args : List Expr),
    Expr.AllPlaced s.current.page.source.toList args → ∀ (here : Nat) (op : Op) (span : Span)
    (vs : List Value) (m : Machine.State) (f : List Value → Except (Halt Error) Value),
    (∀ o m, exec (r.contextAt data s) ⟨op, o, span⟩ m =
      (State.fetchAll (r.contextAt data s) m o (vs.length + args.length)).bind fun (ws, m) =>
        Move.ofResult m (f ws)) →
    Code.At (r.program s.current.page) here (Expr.codeArgs folding here args (.plain op span)) →
    r.finish data (s.goTo here (m.pushAll vs)) =
      r.finishAt data s (here + (Expr.codeArgs folding here args (.plain op span)).length)
        (m.yield (do f (vs ++ (← Expr.evalAll (r.contextAt data s) m.layer args))))
  | [], hp, here, op, span, vs, m, f, hexec, h => by
    rw [Expr.codeArgs] at h
    refine finish_next h.head _ ?_
    rw [Instr.plain, hexec, List.length_nil, Nat.add_zero, State.fetchAll_pushAll]
    simp [Expr.evalAll, State.ofResult_eq]
  | e :: rest, hp, here, op, span, vs, m, f, hexec, h => by
    by_cases hlast : rest = [] ∧ (e.folded? folding).isSome
    · obtain ⟨rfl, hf⟩ := hlast
      obtain ⟨o, ho⟩ := Option.isSome_iff_exists.mp hf
      rw [Expr.codeArgs_folded ho] at h ⊢
      refine finish_next h.head _ ?_
      simp only [Instr.plain]
      rw [hexec, List.length_singleton, State.fetchAll_folded ho hp.1, State.feed, Expr.evalAll]
      cases e.eval (r.contextAt data s) m.layer with
      | error err => rfl
      | ok v => simp [Expr.evalAll, State.ofResult_eq]
    · rw [Expr.codeArgs_cons hlast] at h ⊢
      rw [finish_code e hp.1 here _ h.left, Expr.evalAll, List.length_append, ← Nat.add_assoc]
      have hlayer : (m.pushAll vs).layer = m.layer := rfl
      rw [hlayer]
      cases e.eval (r.contextAt data s) m.layer with
      | error err => rfl
      | ok v =>
        have ih := finish_codeArgs rest hp.2 _ op span (vs ++ [v]) m f
          (by intro o m; rw [hexec]; simp [Nat.add_comm, Nat.add_left_comm]) h.right
        simp only [State.yield, State.ofExcept_ok, Outcome.bind_done, finishAt, State.push_pushAll]
        rw [ih]
        cases Expr.evalAll (r.contextAt data s) m.layer rest with
        | error err => rfl
        | ok ws => simp [State.yield, finishAt]

end

end Renderer

end Stencil

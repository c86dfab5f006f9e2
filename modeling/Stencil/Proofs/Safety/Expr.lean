import Stencil.Proofs.Safety.Ends
import Stencil.Proofs.Simulation.Expr
/-!
# The code of an expression leaves one value

Wherever the code of an expression stands, a rendering that comes to its start ends, if it ends behind
the code with any value on the stack.
-/

namespace Stencil

open Machine

namespace Machine.State

variable {c : Context} {m : State} {P : Move → Prop}

theorem safe_feed {e : Expr} {f : Value × State → Outcome α} {P : α → Prop}
    (h : ∀ v, (f (v, m)).Safe P) : (m.feed c e f).Safe P :=
  .bind (Outcome.safe_ofExcept h)

theorem safe_ofResult {x : Except (Halt Error) Value} (h : ∀ v, P (.next (m.push v))) :
    (Move.ofResult m x).Safe P := by
  cases x with
  | ok v => exact h v
  | error e => trivial

theorem safe_fallback {first : Expr} {o : Operand} (ho : first.operand? = some o)
    (hp : first.Placed c.source.toList) {span : Span} (w : Value)
    (h : ∀ v, P (.next (m.push v))) : (exec c ⟨.fallback, o, span⟩ (m.push w)).Safe P := by
  cases first with
  | literal v span =>
    cases ho
    exact h v
  | name word =>
    cases ho
    simp only [exec, pop_push, Outcome.bind_done, Context.text?_of_covers hp, demand_some]
    split
    · exact h _
    · exact h w
  | _ => cases ho

end Machine.State

namespace Renderer

variable {r : Renderer} {data : Value} {s : Rendering} {folding pageFolding : Bool}

/-- That the code of an expression leaves a value. -/
def Yields (r : Renderer) (data : Value) (s : Rendering) (folding : Bool) (e : Expr) : Prop :=
  ∀ (here : Nat) (m : Machine.State),
    Code.At (r.program s.current.page) here (e.code folding here) →
    (∀ v, r.Ends data (s.goTo (here + (e.code folding here).length) (m.push v))) →
    r.Ends data (s.goTo here m)

theorem ends_feed (hs : r.Ready pageFolding s.current.page) {e : Expr}
    (he : r.Yields data s folding e) (hp : e.Placed s.current.page.source.toList) {here : Nat}
    {op : Op} {span : Span} (k : Registry → Value × Machine.State → Outcome Move)
    (hexec : ∀ functions o m, exec ((r.withFunctions functions).contextAt data s) ⟨op, o, span⟩ m =
      (State.fetch ((r.withFunctions functions).contextAt data s) m o).bind (k functions))
    (h : Code.At (r.program s.current.page) here
      ((e.feed folding here).1 ++ [⟨op, (e.feed folding here).2, span⟩])) (m : Machine.State)
    (hk : ∀ functions v, (k functions (v, m)).Safe
      (r.Leads data s (here + (e.feed folding here).1.length))) :
    r.Ends data (s.goTo here m) := by
  unfold Expr.feed at h hk
  cases ho : e.folded? folding with
  | some o =>
    rw [ho] at h hk
    refine ends_goTo hs h.head fun functions => ?_
    rw [hexec, State.fetch_folded ho hp]
    exact State.safe_feed (hk functions)
  | none =>
    rw [ho] at h hk
    refine he here m h.left fun v => ?_
    refine ends_goTo hs h.last fun functions => ?_
    rw [hexec]
    exact hk functions v

theorem ends_shortcut (hs : r.Ready pageFolding s.current.page) {left right : Expr}
    (hl : r.Yields data s folding left) (hr : r.Yields data s folding right) {here : Nat}
    {op : Nat → Op} {span : Span} {decisive : Bool}
    (hexec : ∀ functions t m, exec ((r.withFunctions functions).contextAt data s)
      (.plain (op t) span) m = Move.decide m decisive t)
    (h : Code.At (r.program s.current.page) here (Expr.shortcut op here (left.code folding here)
      (fun n => right.code folding n) span)) (m : Machine.State)
    (hk : ∀ v, r.Ends data (s.goTo (here + (Expr.shortcut op here (left.code folding here)
      (fun n => right.code folding n) span).length) (m.push v))) :
    r.Ends data (s.goTo here m) := by
  rw [Expr.shortcut] at h hk
  simp only [Code.place_append, List.length_singleton] at hk
  have hlast := h.right.head
  rw [Code.place_cons] at hlast
  -- Whatever value is on top behind both parts, it becomes a truth value.
  have htruth : ∀ v, r.Ends data (s.goTo (here + (left.code folding here).length + 1 +
      (right.code folding (here + (left.code folding here).length + 1)).length) (m.push v)) := by
    intro v
    exact ends_goTo hs hlast fun functions => hk _
  refine hl here m h.left.left fun v => ?_
  refine ends_goTo hs h.left.last fun functions => ?_
  rw [hexec, State.decide_push]
  by_cases hv : v.truthy = decisive
  · rw [if_pos hv]
    exact htruth _
  · rw [if_neg hv]
    exact hr _ m h.left.right.tail htruth

mutual

theorem ends_code (hs : r.Ready pageFolding s.current.page) : ∀ e : Expr,
    e.Placed s.current.page.source.toList → r.Yields data s folding e
  | .literal v span, hp, here, m, h, hk => by
    rw [Expr.code] at h
    exact ends_goTo hs h.head fun functions => hk v
  | .name word, hp, here, m, h, hk => by
    rw [Expr.code] at h
    refine ends_goTo hs h.head fun functions => ?_
    have hexec : exec ((r.withFunctions functions).contextAt data s)
        ⟨.push, .name word.span, word.span⟩ m =
        (State.fetch ((r.withFunctions functions).contextAt data s) m (.name word.span)).bind
          fun (v, m) => .done (.next (m.push v)) := rfl
    rw [hexec, State.fetch_operand (e := .name word) rfl hp]
    exact State.safe_feed hk
  | .apply f args span, hp, here, m, h, hk => by
    rw [Expr.code] at h hk
    exact ends_codeArgs hs args hp.1 here _ span [] m
      (fun functions vs => ((r.withFunctions functions).contextAt data s).apply f vs span)
      (by intro functions o m; simp [exec]) h hk
  | .defined arg span, hp, here, m, h, hk => by
    rw [Expr.code_defined] at h hk
    rw [List.length_append, List.length_singleton, ← Nat.add_assoc] at hk
    refine ends_feed hs (ends_code hs arg hp.1) hp.1 (fun functions (v, m) =>
      Move.ofResult m (((r.withFunctions functions).contextAt data s).isDefined m.layer v span))
      (fun functions o m => rfl) h m fun functions v => ?_
    exact State.safe_ofResult hk
  | .fallback first second span, hp, here, m, h, hk => by
    have hfirst := ends_code hs first hp.1
    have hsecond := ends_code hs second hp.2.1
    rw [Expr.code] at h hk
    cases ho : first.operand? with
    | some o =>
      simp only [ho] at h hk
      rw [List.length_append, List.length_singleton, ← Nat.add_assoc] at hk
      refine hsecond here m h.left fun w => ?_
      exact ends_goTo hs h.last fun functions => State.safe_fallback ho hp.1 w hk
    | none =>
      simp only [ho] at h hk
      refine hfirst here m h.left.left fun v => ?_
      refine hsecond _ (m.push v) h.left.right fun w => ?_
      have hlast := h.right.head
      rw [List.length_append, ← Nat.add_assoc] at hlast
      refine ends_goTo hs hlast fun functions => ?_
      have hk := hk v
      simp only [List.length_append, List.length_singleton, ← Nat.add_assoc] at hk
      exact hk
  | .call callee args span, hp, here, m, h, hk => by
    rw [Expr.code] at h hk
    have htext : ∀ functions,
        ((r.withFunctions functions).contextAt data s).text? callee.span = some callee.text :=
      fun functions => Context.text?_of_covers hp.1
    exact ends_codeArgs hs args hp.2.1 here _ span [] m
      (fun functions vs => ((r.withFunctions functions).contextAt data s).call callee.text vs span)
      (by intro functions o m; simp [exec, htext]) h hk
  | .both left right span, hp, here, m, h, hk => by
    rw [Expr.code] at h hk
    exact ends_shortcut hs (ends_code hs left hp.1) (ends_code hs right hp.2.1)
      (fun functions t m => rfl) h m hk
  | .either left right span, hp, here, m, h, hk => by
    rw [Expr.code] at h hk
    exact ends_shortcut hs (ends_code hs left hp.1) (ends_code hs right hp.2.1)
      (fun functions t m => rfl) h m hk

theorem ends_codeArgs (hs : r.Ready pageFolding s.current.page) : ∀ (args : List Expr),
    Expr.AllPlaced s.current.page.source.toList args → ∀ (here : Nat) (op : Op) (span : Span)
    (vs : List Value) (m : Machine.State) (f : Registry → List Value → Except (Halt Error) Value),
    (∀ functions o m, exec ((r.withFunctions functions).contextAt data s) ⟨op, o, span⟩ m =
      (State.fetchAll ((r.withFunctions functions).contextAt data s) m o
        (vs.length + args.length)).bind fun (ws, m) => Move.ofResult m (f functions ws)) →
    Code.At (r.program s.current.page) here (Expr.codeArgs folding here args (.plain op span)) →
    (∀ v, r.Ends data (s.goTo
      (here + (Expr.codeArgs folding here args (.plain op span)).length) (m.push v))) →
    r.Ends data (s.goTo here (m.pushAll vs))
  | [], hp, here, op, span, vs, m, f, hexec, h, hk => by
    rw [Expr.codeArgs] at h hk
    refine ends_goTo hs h.head fun functions => ?_
    rw [Instr.plain, hexec, List.length_nil, Nat.add_zero, State.fetchAll_pushAll]
    exact State.safe_ofResult hk
  | e :: rest, hp, here, op, span, vs, m, f, hexec, h, hk => by
    by_cases hlast : rest = [] ∧ (e.folded? folding).isSome
    · obtain ⟨rfl, hf⟩ := hlast
      obtain ⟨o, ho⟩ := Option.isSome_iff_exists.mp hf
      rw [Expr.codeArgs_folded ho] at h hk
      refine ends_goTo hs h.head fun functions => ?_
      simp only [Instr.plain]
      rw [hexec, List.length_singleton, State.fetchAll_folded ho hp.1]
      refine .bind (State.safe_feed fun v => ?_)
      exact State.safe_ofResult hk
    · rw [Expr.codeArgs_cons hlast] at h hk
      refine ends_code hs e hp.1 here _ h.left fun v => ?_
      rw [State.push_pushAll]
      rw [List.length_append, ← Nat.add_assoc] at hk
      exact ends_codeArgs hs rest hp.2 _ op span (vs ++ [v]) m f
        (by intro functions o m; rw [hexec]; simp [Nat.add_comm, Nat.add_left_comm]) h.right hk

end

end Renderer

end Stencil

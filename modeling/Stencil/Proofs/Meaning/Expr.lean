import Stencil.Evaluation
/-!
# Scopes that are alike

An expression depends on what lies around its template only by what the names there stand for. A layer
that holds no name makes no difference, then.
-/

namespace Stencil

open Machine

/-! ## Scopes -/

namespace Scope

/-- Every name stands for the same in both scopes. -/
structure Alike (s s' : Scope) : Prop where
  found : ∀ first,
    s.layers.findSome? (·.find? first) = s'.layers.findSome? (·.find? first)
  record : s.loopRecord? = s'.loopRecord?
  data : s.data = s'.data

variable {s s' : Scope}

theorem Alike.refl (s : Scope) : s.Alike s := ⟨fun _ => rfl, rfl, rfl⟩

theorem Alike.find? (h : s.Alike s') (path : List String) : s.find? path = s'.find? path := by
  cases path with
  | nil => rfl
  | cons first rest => rw [Scope.find?, Scope.find?, h.found first, h.data]

theorem Alike.push (h : s.Alike s') (l : Layer) :
    Alike { s with layers := l :: s.layers } { s' with layers := l :: s'.layers } := by
  refine ⟨fun first => ?_, ?_, h.data⟩
  · rw [List.findSome?_cons, List.findSome?_cons, h.found first]
  · have hrecord := h.record
    unfold loopRecord? at hrecord ⊢
    rw [List.findSome?_cons, List.findSome?_cons, hrecord]

theorem empty_alike (layers : List Layer) (data : Value) :
    Alike ⟨.empty :: layers, data⟩ ⟨layers, data⟩ := ⟨fun _ => rfl, rfl, rfl⟩

end Scope

theorem Layer.set_alike {around around' : Scope} (h : around.Alike around') (l : Layer)
    (path : List String) (v : Value) : l.set around path v = l.set around' path v := by
  have hseed : ∀ first, l.seed around first = l.seed around' first := fun first => by
    rw [seed, seed, h.find?]
  unfold set
  split
  · rw [hseed]
  · rfl

/-! ## Contexts -/

namespace Machine.Context

structure Alike (c c' : Context) : Prop where
  source : c.source = c'.source
  functions : c.functions = c'.functions
  sorting : c.sorting = c'.sorting
  paths : c.paths = c'.paths
  around : c.around.Alike c'.around

variable {c c' : Context} {l : Layer}

theorem Alike.scope (h : c.Alike c') (l : Layer) : (c.scope l).Alike (c'.scope l) := h.around.push l

theorem Alike.fault (h : c.Alike c') (f : Fault) (span : Span) : c.fault f span = c'.fault f span := by
  rw [Context.fault, Context.fault, h.source]

theorem Alike.place (h : c.Alike c') (span : Span) (e : Error) : c.place span e = c'.place span e := by
  rw [Context.place, Context.place, h.source]

theorem Alike.lookup (h : c.Alike c') (name : String) (span : Span) :
    c.lookup l name span = c'.lookup l name span := by
  simp only [Context.lookup, (h.scope l).find?, h.paths, h.functions, h.fault, h.place]

theorem Alike.call (h : c.Alike c') (name : String) (args : Arguments) (span : Span) :
    c.call name args span = c'.call name args span := by
  simp only [Context.call, h.functions, h.fault, h.place]

theorem Alike.apply (h : c.Alike c') (f : Builtin) (args : Arguments) (span : Span) :
    c.apply f args span = c'.apply f args span := by
  simp only [Context.apply, h.sorting, h.fault]

theorem Alike.isDefined (h : c.Alike c') (v : Value) (span : Span) :
    c.isDefined l v span = c'.isDefined l v span := by
  simp only [Context.isDefined, (h.scope l).find?, h.paths, h.fault]

theorem Alike.frame? (h : c.Alike c') (binder : Binder Word) (v : Value) (span : Span) :
    c.frame? l binder v span = c'.frame? l binder v span := by
  simp only [Context.frame?, (h.scope l).record, h.fault]

end Machine.Context

/-! ## Expressions -/

namespace Expr

mutual

theorem eval_alike {c c' : Context} (h : c.Alike c') (l : Layer) :
    ∀ e : Expr, e.eval c l = e.eval c' l
  | .literal v span => by simp only [eval]
  | .name word => by simp only [eval, h.lookup]
  | .apply f args span => by simp only [eval, evalAll_alike h l args, h.apply]
  | .defined arg span => by simp only [eval, eval_alike h l arg, h.isDefined]
  | .fallback first second span => by
    have hfirst := eval_alike h l first
    have hsecond := eval_alike h l second
    cases first <;> simp only [eval, hsecond, h.lookup] at hfirst ⊢ <;> rw [hfirst]
  | .call callee args span => by simp only [eval, evalAll_alike h l args, h.call]
  | .both left right span => by simp only [eval, eval_alike h l left, eval_alike h l right]
  | .either left right span => by simp only [eval, eval_alike h l left, eval_alike h l right]

theorem evalAll_alike {c c' : Context} (h : c.Alike c') (l : Layer) :
    ∀ args : List Expr, evalAll c l args = evalAll c' l args
  | [] => by simp only [evalAll]
  | e :: rest => by simp only [evalAll, eval_alike h l e, evalAll_alike h l rest]

end

end Expr

end Stencil

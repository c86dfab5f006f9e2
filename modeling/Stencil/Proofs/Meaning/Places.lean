import Stencil.Proofs.Printing.Term
import Stencil.Proofs.Simulation.Expr
/-!
# Values without places

The value of an expression does not depend on where its parts stand, nor on the source that they stand in.
An error says where it was found, but its fault does not.
-/

namespace Stencil

open Machine

/-! ## Results up to places -/

/-- The same result, or the same panic, or errors with the same fault. -/
def SameFault (x y : Except (Halt Error) α) : Prop :=
  x.mapError (Halt.map Error.fault) = y.mapError (Halt.map Error.fault)

namespace SameFault

variable {x y : Except (Halt Error) α}

theorem cases (h : SameFault x y) :
    (∃ a, x = .ok a ∧ y = .ok a) ∨ ∃ r r', x = .error r ∧ y = .error r' ∧ r.map Error.fault = r'.map Error.fault := by
  cases x with
  | ok a =>
    cases y with
    | ok b =>
      obtain rfl := Except.ok.inj h
      exact .inl ⟨a, rfl, rfl⟩
    | error r => cases h
  | error r =>
    cases y with
    | ok b => cases h
    | error r' => exact .inr ⟨r, r', rfl, rfl, Except.error.inj h⟩

theorem of_fault {r r' : Halt Error} (h : r.map Error.fault = r'.map Error.fault) :
    SameFault (.error r : Except (Halt Error) α) (.error r') := congrArg Except.error h

theorem bind {k k' : α → Except (Halt Error) β} (h : SameFault x y) (hk : ∀ a, SameFault (k a) (k' a)) :
    SameFault (x >>= k) (y >>= k') := by
  rcases h.cases with ⟨a, rfl, rfl⟩ | ⟨r, r', rfl, rfl, hfault⟩
  · exact hk a
  · exact of_fault hfault

theorem ok_iff (h : SameFault x y) {a : α} : x = .ok a ↔ y = .ok a := by
  rcases h.cases with ⟨b, rfl, rfl⟩ | ⟨r, r', rfl, rfl, -⟩
  · exact Iff.rfl
  · exact ⟨nofun, nofun⟩

end SameFault

namespace Machine.Context

structure Beside (c c' : Context) : Prop where
  functions : c.functions = c'.functions
  sorting : c.sorting = c'.sorting
  paths : c.paths = c'.paths
  around : c.around = c'.around

variable {c c' : Context} {l : Layer}

namespace Beside

theorem scope (h : c.Beside c') (l : Layer) : c.scope l = c'.scope l := by
  rw [Context.scope, Context.scope, h.around]

theorem lookup (h : c.Beside c') (l : Layer) (name : String) (span span' : Span) :
    SameFault (c.lookup l name span) (c'.lookup l name span') := by
  unfold Context.lookup
  rw [h.scope, h.paths, h.functions]
  split
  · rfl
  · split
    · rfl
    · split <;> rfl

theorem call (h : c.Beside c') (name : String) (args : Arguments) (span span' : Span) :
    SameFault (c.call name args span) (c'.call name args span') := by
  unfold Context.call
  rw [h.functions]
  split
  · rfl
  · split <;> rfl

theorem apply (h : c.Beside c') (f : Builtin) (args : Arguments) (span span' : Span) :
    SameFault (c.apply f args span) (c'.apply f args span') := by
  unfold Context.apply
  rw [h.sorting]
  split
  · rfl
  · next halt _ => cases halt <;> rfl

theorem isDefined (h : c.Beside c') (l : Layer) (v : Value) (span span' : Span) :
    SameFault (c.isDefined l v span) (c'.isDefined l v span') := by
  unfold Context.isDefined
  rw [h.scope, h.paths]
  split <;> rfl

end Beside

end Machine.Context

/-! ## Expressions -/

namespace Expr

variable {c c' : Context}

theorem isSome_operand? {e e' : Expr} (h : e.erase = e'.erase) :
    e.operand?.isSome = e'.operand?.isSome := by
  have herase : ∀ e : Expr, e.erase.operand?.isSome = e.operand?.isSome := fun e => by cases e <;> rfl
  rw [← herase e, h, herase e']

mutual

theorem eval_same (h : c.Beside c') (l : Layer) : ∀ {e e' : Expr}, e.erase = e'.erase →
    SameFault (e.eval c l) (e'.eval c' l)
  | .literal v span, e', he => by
    cases e' <;> simp only [erase, literal.injEq, reduceCtorEq] at he
    obtain ⟨rfl, -⟩ := he
    rfl
  | .name word, e', he => by
    cases e' <;> simp only [erase, name.injEq, Word.mk.injEq, reduceCtorEq] at he
    rw [eval, eval, he.1]
    exact h.lookup l _ _ _
  | .apply f args span, e', he => by
    cases e' <;> simp only [erase, apply.injEq, reduceCtorEq] at he
    obtain ⟨rfl, hargs, -⟩ := he
    rw [eval, eval]
    exact (evalAll_same h l hargs).bind fun _ => h.apply _ _ _ _
  | .defined arg span, e', he => by
    cases e' <;> simp only [erase, defined.injEq, reduceCtorEq] at he
    rw [eval, eval]
    exact (eval_same h l he.1).bind fun _ => h.isDefined l _ _ _
  | .fallback first second span, e', he => by
    cases e' <;> simp only [erase, fallback.injEq, reduceCtorEq] at he
    have hfirst := eval_same h l he.1
    have hsecond := eval_same h l he.2.1
    have hsome := isSome_operand? he.1
    cases ho : first.operand? with
    | some o =>
      rw [ho] at hsome
      obtain ⟨o', ho'⟩ := Option.isSome_iff_exists.mp hsome.symm
      rw [eval_fallback_operand ho, eval_fallback_operand ho']
      refine hsecond.bind fun v => ?_
      rcases hfirst.cases with ⟨found, hx, hy⟩ | ⟨r, r', hx, hy, -⟩ <;> rw [hx, hy] <;> rfl
    | none =>
      rw [ho, Option.isSome_none, eq_comm, Option.isSome_eq_false_iff, Option.isNone_iff_eq_none] at hsome
      rw [eval_fallback ho, eval_fallback hsome]
      exact hfirst.bind fun v => hsecond.bind fun _ => rfl
  | .call callee args span, e', he => by
    cases e' <;> simp only [erase, call.injEq, Word.mk.injEq, reduceCtorEq] at he
    obtain ⟨⟨hname, -⟩, hargs, -⟩ := he
    rw [eval, eval, hname]
    exact (evalAll_same h l hargs).bind fun _ => h.call _ _ _ _
  | .both left right span, e', he => by
    cases e' <;> simp only [erase, both.injEq, reduceCtorEq] at he
    rw [eval, eval]
    refine (eval_same h l he.1).bind fun v => ?_
    split
    · exact (eval_same h l he.2.1).bind fun _ => rfl
    · rfl
  | .either left right span, e', he => by
    cases e' <;> simp only [erase, either.injEq, reduceCtorEq] at he
    rw [eval, eval]
    refine (eval_same h l he.1).bind fun v => ?_
    split
    · rfl
    · exact (eval_same h l he.2.1).bind fun _ => rfl

theorem evalAll_same (h : c.Beside c') (l : Layer) : ∀ {es es' : List Expr},
    eraseArgs es = eraseArgs es' → SameFault (evalAll c l es) (evalAll c' l es')
  | [], es', hes => by
    cases es' with
    | nil => rfl
    | cons e' es' => cases hes
  | e :: es, es', hes => by
    cases es' with
    | nil => cases hes
    | cons e' es' =>
      rw [eraseArgs, eraseArgs, List.cons.injEq] at hes
      rw [evalAll, evalAll]
      exact (eval_same h l hes.1).bind fun v => (evalAll_same h l hes.2).bind fun vs => rfl

end

end Expr

end Stencil

import Stencil.Proofs.Calling.Routine
import Stencil.Proofs.Loading.Session
import Stencil.Proofs.Rendering.Halts
/-!
# The errors of callbacks and loaders

An error that leaves a template gets the source and the name of that template. An error that callbacks or
loaders return may have some of its own. In a session they return none of this kind.
-/

namespace Stencil

/-! ## Errors that leave a template -/

namespace Error

/-- Neither a place nor the name of a template comes with the error. -/
def Native (raised : Error) : Prop := raised.place = none ∧ raised.template = none

/-- What has become of an error outside of a template with a source and a name. A native one has a place
and the name there, and one that came with both is unchanged. -/
structure Leaves (raised : Error) (source : String) (span : Span) (name : Option String)
    (err : Error) : Prop where
  fault : err.fault = raised.fault
  placed : err.place.isSome
  native : raised.Native → err.place = some (source, span) ∧ err.template = name
  complete : raised.place.isSome → raised.template.isSome → err = raised

end Error

/-! ## Callbacks and loaders with native errors -/

namespace Registry

def Tame (callbacks : Registry) : Prop := ∀ name arity f, callbacks.callback? name arity = some f →
  ∀ args raised, f args = .error raised → raised.Native

variable {callbacks : Registry} {name : String} {n : Nat} {f : Callback}

theorem callback?_of_lookup (h : callbacks.lookup name n = some f) :
    ∃ arity, callbacks.callback? name arity = some f := by
  rcases Option.or_eq_some_iff.mp h with hfixed | ⟨-, hvariadic⟩
  · exact ⟨.fixed n, hfixed⟩
  · unfold variadic? at hvariadic
    split at hvariadic
    · cases hvariadic
    · exact ⟨.variadic, hvariadic⟩

theorem Tame.native (h : callbacks.Tame) {raised : Error} (hraised : callbacks.Raises raised) :
    raised.Native := by
  cases hraised with
  | fault f => exact ⟨rfl, rfl⟩
  | callback hlookup hreturn =>
    obtain ⟨arity, hcallback⟩ := callback?_of_lookup hlookup
    exact h _ arity _ hcallback _ raised hreturn

theorem Tame.add (h : callbacks.Tame) (hf : ∀ args raised, f args = .error raised → raised.Native)
    (name : String) (arity : Arity) : (callbacks.add name arity f).Tame := by
  intro name' arity' g hg
  by_cases hsame : name' = name ∧ arity' = arity
  · obtain ⟨rfl, rfl⟩ := hsame
    rw [callback?_add_self] at hg
    cases hg
    exact hf
  · rw [callback?_add_ne hsame] at hg
    exact h name' arity' g hg

end Registry

/-- The errors of the callbacks and of the loader are native. -/
structure Engine.Native (e : Engine) : Prop where
  callbacks : ∀ raised, e.functions.Raises raised → raised.Native
  loader : ∀ loader path raised, e.loader = some loader → loader.answer path = .error raised →
    raised.Native

/-! ## Sessions -/

namespace Session

end Session

end Stencil

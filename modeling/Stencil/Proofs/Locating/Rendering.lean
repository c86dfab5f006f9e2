import Mathlib.Logic.Relation
import Stencil.Proofs.Locating.Origins
import Stencil.Proofs.Safety.Ends
/-!
# Where a rendering fails

The error of a rendering comes from the page that it is in when it fails, and leaves it with the source
of that page and the name that the page was entered under.
-/

namespace Stencil

/-! ## Names of visits -/

/-- Only the outermost visit has the name of the whole rendering. The others have keys for names. -/
def Visit.Named (name : Option String) : Visit → List Visit → Prop
  | v, [] => v.name = name
  | v, u :: rest => (∃ key, v.name = some key) ∧ u.Named name rest

namespace Rendering

variable {name : Option String} {s : Rendering} {err : Error}

def Named (name : Option String) (s : Rendering) : Prop := s.current.Named name s.callers

end Rendering

namespace Renderer

variable {r : Renderer} {data : Value} {s s' : Rendering} {name : Option String} {err : Error}
  {out : Output}

theorem Moves.named (h : r.Moves data s s') (hs : s.Named name) : s'.Named name := by
  rcases h.cases with ⟨place, m, rfl⟩ | ⟨i, key, -, -, p, -, -, rfl⟩ | ⟨v, rest, -, hc, rfl⟩
  · unfold Rendering.Named at hs ⊢
    rw [Rendering.callers_goTo]
    cases hc : s.callers with
    | nil =>
      rw [hc] at hs
      exact hs
    | cons v rest =>
      rw [hc] at hs
      exact hs
  · exact ⟨⟨key, rfl⟩, hs⟩
  · unfold Rendering.Named at hs
    rw [hc] at hs
    have hrest := hs.2
    unfold Rendering.Named
    cases rest with
    | nil => exact hrest
    | cons u rest => exact hrest

theorem Reaches.named (h : r.Reaches data s s') (hs : s.Named name) : s'.Named name := by
  induction h with
  | refl => exact hs
  | step _ hm ih => exact hm.named ih

/-! ## The step that fails -/

def Goes (r : Renderer) (data : Value) (s s' : Rendering) : Prop := r.step data s = .going s'

theorem Ending.last {o : Outcome Output} {functions : Nat → Registry}
    (h : r.Ending data functions s o) (hf : ∀ n, functions n = r.functions) :
    ∃ s', Relation.ReflTransGen (r.Goes data) s s' ∧ r.step data s' = .ended o := by
  induction h with
  | ended hstep =>
    rw [hf] at hstep
    exact ⟨_, .refl, hstep⟩
  | going hstep _ ih =>
    rw [hf] at hstep
    obtain ⟨s', hgoes, hend⟩ := ih fun n => hf (n + 1)
    exact ⟨s', .head hstep hgoes, hend⟩

end Renderer

end Stencil

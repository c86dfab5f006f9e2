import Stencil.Proofs.Safety.Engine
import Stencil.Proofs.Simulation.Page
/-!
# Rendering is evaluation

Whatever an engine has gone through, each of its templates is rendered to what it means: to the same
output, and to the same end.
-/

namespace Stencil.Engine

variable {e : Engine} {name : Option String} {t : Template}

theorem renderInto_meaning (he : e.Sound) (ht : t.Sound name) (data : Value) (out : Output) :
    e.renderInto name t data out = (e.renderer name t).meaning name t.page data out :=
  Renderer.finish_meaning (fun _ _ h => ready_of_sound (page?_sound he ht h)) (ready_of_sound ht.root)

/-- The machine carries out the program of a template to the end that its tree means, whatever data
and output it starts with. -/
theorem renderInto_eq_meaning (he : e.Reached) (ht : e.Offers name t) (data : Value) (out : Output) :
    e.renderInto name t data out = (e.renderer name t).meaning name t.page data out ∧
      (e.renderer name t).Ending data (fun _ => e.functions) (.start name t.page out)
        ((e.renderer name t).meaning name t.page data out) := by
  have hmeaning : (e.renderer name t).finish data (.start name t.page out) =
      (e.renderer name t).meaning name t.page data out :=
    Renderer.finish_meaning (he.pages_ready ht) (he.root_ready ht)
  refine ⟨hmeaning, ?_⟩
  rw [← hmeaning]
  exact (start_ends he ht data out).finish.1

theorem medley_renderInto : bare.Reached ∧ bare.Offers none ⟨medleyPage true, []⟩ ∧
    bare.renderInto none ⟨medleyPage true, []⟩ .null (.memory "") =
      .done (.memory "falsetruefalsetrue") :=
  ⟨bare_reached, bare_offers,
    (renderInto_eq_meaning bare_reached bare_offers .null (.memory "")).1.trans rfl⟩

end Stencil.Engine

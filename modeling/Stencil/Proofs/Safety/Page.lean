import Stencil.Proofs.Safety.Body
/-!
# Renderings end

A rendering that enters a page ends, if it does after leaving the page. With each include that is
entered there can be one less in it, so a rendering ends on any page.
-/

namespace Stencil

open Machine

namespace Renderer

variable {r : Renderer} {data : Value} {folding : Bool} {p : Page} {name : Option String}
  {callers : List Visit} {out : Output}

def Leaves (r : Renderer) (data : Value) (callers : List Visit) : Prop :=
  ∀ v rest, callers = v :: rest → ∀ out, r.Ends data ⟨{ v with place := v.place + 1 }, rest, out⟩

theorem ends_start (hp : r.Ready folding p)
    (hreturns : r.Returns data ⟨.start name p, callers, out⟩) (hleaves : r.Leaves data callers) :
    r.Ends data ⟨.start name p, callers, out⟩ := by
  have hbody : r.Keeps data ⟨.start name p, callers, out⟩ folding p.body :=
    ends_body hp hreturns hp.placed
  refine hbody 0 ⟨[], .empty, out⟩ hp.at_start fun q hq => ?_
  have hstep : ∀ functions, (r.withFunctions functions).step data
      (Rendering.goTo ⟨.start name p, callers, out⟩ (0 + (p.body.code folding 0).length)
        ⟨[], q.layer, q.out⟩) =
      leave (Rendering.goTo ⟨.start name p, callers, out⟩ (0 + (p.body.code folding 0).length)
        ⟨[], q.layer, q.out⟩) := by
    intro functions
    have hend : ((r.withFunctions functions).program p)[0 + (p.body.code folding 0).length]? = none :=
      hp.at_end
    rw [step, Rendering.page_goTo, Rendering.place_goTo, Visit.start, hend]
  refine .intro ⟨?_, hp.fits, fun _ => ⟨rfl, hq⟩⟩ ?_
  · intro functions out' hstuck
    refine absurd ((hstep functions).symm.trans hstuck) ?_
    unfold leave
    split <;> exact nofun
  · rintro s' ⟨functions, hm⟩
    have hleave := (hstep functions).symm.trans hm
    unfold leave at hleave
    split at hleave
    · cases hleave
    · next v rest hcallers =>
      cases hleave
      exact hleaves v rest hcallers q.out

theorem ends_page (hpages : ∀ key q, r.page? key = some q → r.Ready q.folding q) (depth : Nat)
    (hp : r.Ready folding p) (hlimit : r.limit = callers.length + depth)
    (hleaves : r.Leaves data callers) : r.Ends data ⟨.start name p, callers, out⟩ := by
  induction depth generalizing folding p name callers out with
  | zero =>
    refine ends_start hp ?_ hleaves
    rintro place key m - s' ⟨q, -, hdeep, -⟩
    rw [Rendering.callers_goTo] at hdeep
    exact absurd hdeep (Nat.not_lt.mpr (Nat.le_of_eq hlimit))
  | succ depth ih =>
    refine ends_start hp ?_ hleaves
    rintro place key m hback s' ⟨q, hq, -, rfl⟩
    refine ih (hpages key q hq) ?_ ?_
    · rw [List.length_cons, hlimit, Rendering.callers_goTo, Nat.add_right_comm, Nat.add_assoc]
    · -- The included page is left for the place behind the include.
      rintro v rest ⟨⟩ out'
      exact hback out'

end Renderer

end Stencil

import Stencil.Proofs.Simulation.Body
/-!
# Programs compute what templates mean

A rendering that enters a page comes to the end that the page means, at any depth of includes. Every
page has the program of its tree, so a rendering comes to what its first page means.
-/

namespace Stencil

open Machine

namespace Renderer

variable {r : Renderer} {data : Value} {folding : Bool} {p : Page} {name : Option String}
  {callers : List Visit} {out : Output}

/-! ## From page to page -/

def finishPage (r : Renderer) (data : Value) (s : Rendering) : Outcome Output → Outcome Output
  | .done out => r.finishTurn data (leave { s with out := out })
  | .failed h out => .failed (h.map s.sign) out
  | .stuck out => .stuck out

theorem finish_start {insert : Body.Insertion} (hp : r.Ready folding p)
    (hinsert : r.Inserts data ⟨.start name p, callers, out⟩ insert) :
    r.finish data ⟨.start name p, callers, out⟩ =
      r.finishPage data ⟨.start name p, callers, out⟩
        (p.body.evalAll (r.context p ⟨callers.map (·.layer), data⟩) insert out) := by
  refine (finish_body hinsert hp.placed 0 ⟨[], .empty, out⟩ hp.at_start).trans ?_
  rw [Body.evalAll]
  cases hresult : p.body.eval (r.context p ⟨callers.map (·.layer), data⟩) insert ⟨.empty, out⟩ with
  | done q =>
    have hresult' : p.body.eval (r.contextAt data ⟨.start name p, callers, out⟩) insert
        ⟨.empty, out⟩ = .done q := hresult
    rw [State.progress, hresult']
    simp only [Outcome.bind_done, finishAt, finishPage]
    rw [finish_eq, step, Rendering.page_goTo, Rendering.place_goTo, Visit.start, hp.at_end]
    rfl
  | _ =>
    have hresult' : p.body.eval (r.contextAt data ⟨.start name p, callers, out⟩) insert
        ⟨.empty, out⟩ = _ := hresult
    rw [State.progress, hresult']
    rfl

theorem finishPage_included {s : Rendering} {place : Nat} {m : Machine.State} {key : String}
    {q : Page} (o : Outcome Output) :
    r.finishPage data ⟨.start (some key) q, (s.goTo place m).current :: s.callers, m.out⟩ o =
      r.finishAt data s (place + 1) ((o.orIn key).bind fun out => .done { m with out := out }) := by
  cases o with
  | failed h out => cases h <;> rfl
  | _ => rfl

/-- A page comes to what it means, given how deep its includes may still be nested. -/
theorem finish_page (hpages : ∀ key q, r.page? key = some q → r.Ready q.folding q) (depth : Nat)
    (hp : r.Ready folding p) (hlimit : r.limit = callers.length + depth) :
    r.finish data ⟨.start name p, callers, out⟩ =
      r.finishPage data ⟨.start name p, callers, out⟩
        (r.eval depth p ⟨callers.map (·.layer), data⟩ out) := by
  induction depth generalizing folding p name callers out with
  | zero =>
    refine finish_start hp ?_
    intro place key span m
    have hdeep : r.limit ≤ callers.length := Nat.le_of_eq hlimit
    rw [enter, Rendering.callers_goTo, if_pos hdeep]
    rfl
  | succ depth ih =>
    refine finish_start hp ?_
    intro place key span m
    have hdeep : ¬ r.limit ≤ callers.length := by omega
    rw [enter, Rendering.callers_goTo, if_neg hdeep]
    dsimp only
    cases hkey : r.page? key with
    | none => rfl
    | some q =>
      -- The included page has the visit of this one as its innermost caller.
      refine (ih (hpages key q hkey) (by rw [List.length_cons]; omega)).trans ?_
      exact finishPage_included _

theorem finishPage_first (o : Outcome Output) :
    r.finishPage data ⟨.start name p, [], out⟩ o = o.orInOptional name := by
  cases o with
  | failed h out => cases name <;> cases h <;> rfl
  | _ => cases name <;> rfl

theorem finish_meaning (hpages : ∀ key q, r.page? key = some q → r.Ready q.folding q)
    (hp : r.Ready folding p) :
    r.finish data (.start name p out) = r.meaning name p data out := by
  rw [Rendering.start, finish_page hpages r.limit hp (Nat.zero_add _).symm, finishPage_first]
  rfl

end Renderer

end Stencil

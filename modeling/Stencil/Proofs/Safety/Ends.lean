import Stencil.Proofs.Rendering.Reaches
/-!
# Renderings that come to an end

`Renderer.Ends` holds of a state if the steps from it come to an end, whatever the callbacks do, and
nothing is missing in any state on the way.
-/

namespace Stencil

open Machine

/-! ## Work that does not get stuck -/

namespace Outcome

/-- The work does not get stuck, and what it results in has the property. -/
def Safe (P : α → Prop) : Outcome α → Prop
  | .done a => P a
  | .stuck _ => False
  | _ => True

variable {P : α → Prop}

theorem Safe.bind {o : Outcome β} {f : β → Outcome α} (h : o.Safe fun b => (f b).Safe P) :
    (o.bind f).Safe P := by
  cases o <;> exact h

theorem safe_ofExcept {m : Machine.State} {x : Except (Halt Error) α} (h : ∀ a, P a) :
    (m.ofExcept x).Safe P := by
  cases x with
  | ok a => exact h a
  | error e => trivial

theorem safe_write {m : Machine.State} {text : String} {P : Machine.State → Prop}
    (h : ∀ out, P { m with out := out }) : (m.write text).Safe P := by
  unfold State.write
  split
  · exact h _
  · trivial

end Outcome

namespace Renderer

variable (r : Renderer) (data : Value)

/-! ## Endings -/

/-- How a rendering ends in which the callbacks behave in some way in each step. -/
inductive Ending : (Nat → Registry) → Rendering → Outcome Output → Prop
  | ended {functions : Nat → Registry} {s : Rendering} {o : Outcome Output} :
    (r.withFunctions (functions 0)).step data s = .ended o → Ending functions s o
  | going {functions : Nat → Registry} {s s' : Rendering} {o : Outcome Output} :
    (r.withFunctions (functions 0)).step data s = .going s' →
      Ending (fun n => functions (n + 1)) s' o → Ending functions s o

/-- Nothing is missing in the state: its instruction has all values that it asks for, whatever the
callbacks do, and all spans of the program lie in the source of the page. Behind the program no values
and no loops are left. -/
structure Fit (s : Rendering) : Prop where
  running : ∀ functions out, (r.withFunctions functions).step data s ≠ .ended (.stuck out)
  spans : ∀ i ∈ r.program s.current.page,
    i.Fits s.current.page.source.toList s.current.page.body.Includes
  ended : (r.program s.current.page)[s.current.place]? = none →
    s.current.stack = [] ∧ s.current.layer.frames = []

/-- The steps from the state come to an end, and all states on the way are fit. -/
inductive Ends : Rendering → Prop
  | intro {s : Rendering} (fit : r.Fit data s) (next : ∀ s', r.Moves data s s' → Ends s') : Ends s

variable {r data} {s s' : Rendering}

theorem Ends.fit (h : r.Ends data s) : r.Fit data s := by
  cases h with
  | intro fit _ => exact fit

theorem Ends.next (h : r.Ends data s) (hm : r.Moves data s s') : r.Ends data s' := by
  cases h with
  | intro _ next => exact next s' hm

theorem Ends.reaches (h : r.Ends data s) (hs : r.Reaches data s s') : r.Ends data s' := by
  induction hs with
  | refl => exact h
  | step _ hm ih => exact ih.next hm

theorem Ends.ending (h : r.Ends data s) (functions : Nat → Registry) :
    ∃ o, r.Ending data functions s o ∧ ∀ out, o ≠ .stuck out := by
  induction h generalizing functions with
  | @intro s fit _ ih =>
    cases hstep : (r.withFunctions (functions 0)).step data s with
    | ended o =>
      refine ⟨o, .ended hstep, ?_⟩
      rintro out rfl
      exact fit.running _ out hstep
    | going s' =>
      obtain ⟨o, ho, hstuck⟩ := ih s' ⟨functions 0, hstep⟩ fun n => functions (n + 1)
      exact ⟨o, .going hstep ho, hstuck⟩

theorem Ending.finish {functions : Nat → Registry} {o : Outcome Output}
    (h : r.Ending data functions s o) (hf : ∀ n, functions n = r.functions) :
    r.finish data s = o := by
  induction h with
  | ended hstep =>
    rw [hf] at hstep
    have hstep' : r.step data _ = _ := hstep
    rw [finish_eq, hstep']
    rfl
  | going hstep _ ih =>
    rw [hf] at hstep
    have hstep' : r.step data _ = _ := hstep
    rw [finish_eq, hstep']
    exact ih fun n => hf (n + 1)

theorem Ends.finish (h : r.Ends data s) :
    r.Ending data (fun _ => r.functions) s (r.finish data s) ∧
      ∀ out, r.finish data s ≠ .stuck out := by
  obtain ⟨o, ho, hstuck⟩ := h.ending fun _ => r.functions
  rw [ho.finish fun _ => rfl]
  exact ⟨ho, hstuck⟩

/-! ## One step -/

variable {folding : Bool} {here : Nat} {i : Instr} {m : Machine.State}

def Leads (r : Renderer) (data : Value) (s : Rendering) (here : Nat) : Move → Prop
  | .next m => r.Ends data (s.goTo (here + 1) m)
  | .jump target m => r.Ends data (s.goTo target m)
  | .insert key m => ∀ s', r.Entering (s.goTo here m) key s' → r.Ends data s'

theorem follow_safe {o : Outcome Move} (h : o.Safe (r.Leads data s here)) (functions : Registry)
    (span : Span) :
    (∀ out, (r.withFunctions functions).follow (s.goTo here m) span o ≠ .ended (.stuck out)) ∧
      ∀ s', (r.withFunctions functions).follow (s.goTo here m) span o = .going s' →
        r.Ends data s' := by
  cases o with
  | stuck out => exact h.elim
  | failed e out => exact ⟨nofun, nofun⟩
  | done move =>
    cases move with
    | next m' =>
      refine ⟨nofun, ?_⟩
      rintro s' ⟨⟩
      exact h
    | jump target m' =>
      refine ⟨nofun, ?_⟩
      rintro s' ⟨⟩
      exact h
    | insert key m' =>
      refine ⟨?_, fun s' hs' => h s' (entering_of_enter hs')⟩
      intro out hstuck
      simp only [follow, enter, fail] at hstuck
      split at hstuck
      · cases hstuck
      · split at hstuck <;> cases hstuck

theorem ends_goTo (hs : r.Ready folding s.current.page)
    (hi : (r.program s.current.page)[here]? = some i)
    (h : ∀ functions,
      (exec ((r.withFunctions functions).contextAt data s) i m).Safe (r.Leads data s here)) :
    r.Ends data (s.goTo here m) := by
  have hstep : ∀ functions, (r.withFunctions functions).step data (s.goTo here m) =
      (r.withFunctions functions).follow (s.goTo here m) i.span
        (exec ((r.withFunctions functions).contextAt data s) i m) :=
    fun functions => step_goTo hi
  refine .intro ⟨?_, hs.fits, ?_⟩ ?_
  · intro functions
    rw [hstep]
    exact (follow_safe (h functions) functions i.span).1
  · intro hend
    rw [Rendering.page_goTo, Rendering.place_goTo, hi] at hend
    cases hend
  · rintro s' ⟨functions, hm⟩
    rw [hstep] at hm
    exact (follow_safe (h functions) functions i.span).2 s' hm

end Renderer

end Stencil

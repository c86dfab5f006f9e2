import Stencil.Proofs.Rendering.Steps
/-!
# What a rendering comes to

The states that steps lead to, whatever the callbacks do on the way. A step stays in its page, enters
another one at an include, or goes back to the page that waits.
-/

namespace Stencil

open Machine

/-! ## One instruction -/

namespace Machine

/-- Leads to no page that has to be inserted. -/
def Move.Stays : Move → Prop
  | .next _ | .jump _ _ => True
  | .insert _ _ => False

open Outcome

theorem stays_ofResult {m : Machine.State} {x : Except (Halt Error) Value} :
    (Move.ofResult m x).Gives Move.Stays := by
  cases x with
  | ok v => exact gives_done trivial
  | error h => exact nofun

theorem stays_decide {m : Machine.State} {decisive : Bool} {target : Nat} :
    (Move.decide m decisive target).Gives Move.Stays := by
  refine gives_bind fun _ => gives_done ?_
  split <;> trivial

theorem exec_stays {c : Context} {i : Instr} {m : Machine.State} (h : ∀ key, i.op ≠ .inclusion key) :
    (exec c i m).Gives Move.Stays := by
  obtain ⟨op, o, span⟩ := i
  cases op with
  | inclusion key => exact absurd rfl (h key)
  | text place => exact gives_bind fun _ => gives_bind fun _ => gives_done trivial
  | emit => exact gives_bind fun _ => gives_bind fun _ => gives_done trivial
  | push => exact gives_bind fun _ => gives_done trivial
  | apply f n => exact gives_bind fun _ => stays_ofResult
  | defined => exact gives_bind fun _ => stays_ofResult
  | fallback =>
    refine gives_bind fun second => ?_
    cases o with
    | top => exact gives_bind fun _ => gives_done trivial
    | literal v => exact gives_done trivial
    | name place =>
      refine gives_bind fun text => ?_
      split <;> exact gives_done trivial
  | call place n => exact gives_bind fun _ => gives_bind fun _ => stays_ofResult
  | jump t => exact gives_done trivial
  | jumpUnless t =>
    refine gives_bind fun _ => gives_done ?_
    split <;> trivial
  | jumpIfFalse t => exact stays_decide
  | jumpIfTrue t => exact stays_decide
  | loopStart binder stop =>
    refine gives_bind fun _ => gives_bind fun _ => gives_bind fun f => gives_done ?_
    cases f <;> trivial
  | loopNext start =>
    refine gives_bind fun _ => gives_done ?_
    split <;> trivial
  | set path => exact gives_bind fun _ => gives_done trivial

theorem exec_insert {c : Context} {i : Instr} {m m' : Machine.State} {key : String}
    (h : exec c i m = .done (.insert key m')) : i.op = .inclusion key ∧ m' = m := by
  cases hop : i.op with
  | inclusion key' =>
    rw [exec, hop] at h
    cases h
    exact ⟨rfl, rfl⟩
  | _ => exact (exec_stays (by simp [hop]) _ h).elim

end Machine

/-! ## Steps -/

namespace Renderer

def withFunctions (r : Renderer) (functions : Registry) : Renderer := { r with functions := functions }

/-- That a step leads from one state to another if the callbacks behave in some way. -/
def Moves (r : Renderer) (data : Value) (s s' : Rendering) : Prop :=
  ∃ functions, (r.withFunctions functions).step data s = .going s'

/-- That steps lead from one state to another. The callbacks may behave differently in each. -/
inductive Reaches (r : Renderer) (data : Value) (s : Rendering) : Rendering → Prop
  | refl : Reaches r data s s
  | step {s' s'' : Rendering} : Reaches r data s s' → r.Moves data s' s'' → Reaches r data s s''

variable {r : Renderer} {data : Value} {s s' : Rendering}

theorem Reaches.head {s'' : Rendering} (hm : r.Moves data s s') (h : r.Reaches data s' s'') :
    r.Reaches data s s'' := by
  induction h with
  | refl => exact .step .refl hm
  | step _ hm' ih => exact .step ih hm'

def Entering (r : Renderer) (s : Rendering) (key : String) (s' : Rendering) : Prop :=
  ∃ p, r.page? key = some p ∧ s.callers.length < r.limit ∧
    s' = ⟨.start (some key) p, s.current :: s.callers, s.out⟩

theorem entering_of_enter {key : String} {span : Span} (h : r.enter s key span = .going s') :
    r.Entering s key s' := by
  unfold enter at h
  split at h
  · cases h
  · next hdeep =>
    split at h
    · cases h
    · next p hp =>
      cases h
      exact ⟨p, hp, Nat.lt_of_not_le hdeep, rfl⟩

theorem step_inclusion {i : Instr} {key : String}
    (hi : (r.program s.current.page)[s.current.place]? = some i) (hop : i.op = .inclusion key) :
    r.step data s = r.enter s key i.span := by
  obtain ⟨op, o, span⟩ := i
  cases hop
  unfold step
  rw [hi]
  rfl

theorem Moves.cases (h : r.Moves data s s') :
    (∃ place m, s' = s.goTo place m) ∨
    (∃ i key, (r.program s.current.page)[s.current.place]? = some i ∧ i.op = .inclusion key ∧
      r.Entering s key s') ∨
    (∃ v rest, (r.program s.current.page)[s.current.place]? = none ∧ s.callers = v :: rest ∧
      s' = ⟨{ v with place := v.place + 1 }, rest, s.out⟩) := by
  obtain ⟨functions, h⟩ := h
  unfold step at h
  split at h
  · next hend =>
    have hend' : (r.program s.current.page)[s.current.place]? = none := hend
    unfold leave at h
    split at h
    · cases h
    · next v rest hcallers =>
      cases h
      exact .inr (.inr ⟨v, rest, hend', hcallers, rfl⟩)
  · next i hi =>
    have hi' : (r.program s.current.page)[s.current.place]? = some i := hi
    cases hexec : exec ((r.withFunctions functions).context s.current.page (s.around data)) i
        s.machine with
    | done move =>
      rw [hexec] at h
      cases move with
      | next m =>
        cases h
        exact .inl ⟨_, m, rfl⟩
      | jump target m =>
        cases h
        exact .inl ⟨_, m, rfl⟩
      | insert key m =>
        obtain ⟨hop, rfl⟩ := exec_insert hexec
        exact .inr (.inl ⟨i, key, hi', hop, entering_of_enter h⟩)
    | _ =>
      rw [hexec] at h
      cases h

theorem Reaches.depth_le (h : r.Reaches data s s') (hs : s.callers.length ≤ r.limit) :
    s'.callers.length ≤ r.limit := by
  induction h with
  | refl => exact hs
  | step _ hm ih =>
    rcases hm.cases with ⟨place, m, rfl⟩ | ⟨i, key, -, -, p, -, hdeep, rfl⟩ | ⟨v, rest, -, hc, rfl⟩
    · exact ih
    · exact hdeep
    · rw [hc, List.length_cons] at ih
      exact Nat.le_of_succ_le ih

end Renderer

end Stencil

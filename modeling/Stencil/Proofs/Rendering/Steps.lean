import Stencil.Proofs.Placement.Code
import Stencil.Renderer
/-!
# Steps of a rendering

What one step comes to at a place whose instruction is known, and how the steps after it go on.
-/

namespace Stencil

open Machine

/-! ## Results -/

@[simp] theorem except_ok_bind (a : α) (f : α → Except ε β) : (Except.ok a >>= f) = f a := rfl
@[simp] theorem except_error_bind (e : ε) (f : α → Except ε β) :
    (Except.error e >>= f) = .error e := rfl
@[simp] theorem except_pure (a : α) : (pure a : Except ε α) = .ok a := rfl
@[simp] theorem except_ok_map (a : α) (f : α → β) : (Except.ok a : Except ε α).map f = .ok (f a) := rfl
@[simp] theorem except_error_map (e : ε) (f : α → β) : (Except.error e).map f = .error e := rfl

theorem except_ok_of_bind {x : Except ε α} {f : α → Except ε β} {b : β}
    (h : (x >>= f) = .ok b) : ∃ a, x = .ok a ∧ f a = .ok b := by
  cases x with
  | ok a => exact ⟨a, rfl, h⟩
  | error e => cases h

theorem except_ok_of_lift {x : Except ε α} {a : α}
    (h : (liftM x : Except (Halt ε) α) = .ok a) : x = .ok a := by
  cases x with
  | ok b => cases h; rfl
  | error e => cases h

namespace Outcome

variable (f : α → Outcome β)

@[simp] theorem bind_done (a : α) : (Outcome.done a).bind f = f a := rfl
@[simp] theorem bind_failed (h : Halt Error) (out : Output) :
    (Outcome.failed h out).bind f = .failed h out := rfl

theorem done_of_bind {f : α → Outcome β} {o : Outcome α} {b : β} (h : o.bind f = .done b) :
    ∃ a, o = .done a ∧ f a = .done b := by
  cases o with
  | done a => exact ⟨a, rfl, h⟩
  | _ => cases h

/-- Where the work comes to a result, this has the property. -/
def Gives (o : Outcome α) (P : α → Prop) : Prop := ∀ a, o = .done a → P a

theorem gives_done {P : α → Prop} {a : α} (h : P a) : (Outcome.done a).Gives P := by
  rintro _ ⟨⟩
  exact h

theorem Gives.bind {P : β → Prop} {Q : α → Prop} {o : Outcome α} {f : α → Outcome β} (h : o.Gives Q)
    (hf : ∀ a, Q a → (f a).Gives P) : (o.bind f).Gives P := by
  intro b hb
  obtain ⟨a, ha, hb⟩ := done_of_bind hb
  exact hf a (h a ha) b hb

theorem gives_bind {P : β → Prop} {o : Outcome α} {f : α → Outcome β} (hf : ∀ a, (f a).Gives P) :
    (o.bind f).Gives P :=
  Gives.bind (Q := fun _ => True) (fun _ _ => trivial) fun a _ => hf a

end Outcome

namespace Machine.State

variable (m : State)

@[simp] theorem ofExcept_ok (a : α) : m.ofExcept (.ok a) = .done a := rfl
@[simp] theorem ofExcept_error (h : Halt Error) :
    (m.ofExcept (.error h) : Outcome α) = .failed h m.out := rfl
@[simp] theorem demand_some (a : α) : m.demand (some a) = .done a := rfl
@[simp] theorem pop_push (v : Value) : (m.push v).pop = .done (v, m) := rfl

end Machine.State

theorem Machine.Context.text?_of_covers {c : Context} {place : Span} {text : String}
    (h : place.Covers c.source.toList text.toList) : c.text? place = some text := by
  rw [Context.text?, h.slice, Option.map_some, String.ofList_toList]

/-! ## Code at an address -/

def Code.At (program : Array Instr) (here : Nat) (code : Code) : Prop :=
  ∀ k i, code[k]? = some i → program[here + k]? = some i

namespace Code.At

variable {program : Array Instr} {here : Nat} {a b : Code} {i : Instr}

theorem whole (code : Code) : Code.At code.toArray 0 code := by
  intro k i h
  simpa using h

theorem left (h : Code.At program here (a ++ b)) : Code.At program here a := by
  intro k i hk
  apply h
  rw [List.getElem?_append_left (List.getElem?_eq_some_iff.mp hk).1]
  exact hk

theorem right (h : Code.At program here (a ++ b)) : Code.At program (here + a.length) b := by
  intro k i hk
  rw [Nat.add_assoc]
  apply h
  rw [List.getElem?_append_right (by omega)]
  simpa using hk

theorem head (h : Code.At program here (i :: a)) : program[here]? = some i := by
  simpa using h 0 i rfl

theorem tail (h : Code.At program here (i :: a)) : Code.At program (here + 1) a := by
  intro k j hk
  rw [Nat.add_assoc, Nat.add_comm 1]
  exact h (k + 1) j (by simpa using hk)

theorem moved (h : Code.At program here a) (here' : Nat) (he : here = here') :
    Code.At program here' a := he ▸ h

theorem front (h : Code.At program here (a ++ i :: b)) : Code.At program here (a ++ [i]) :=
  @left _ _ _ b (by simpa using h)

theorem back (h : Code.At program here (a ++ i :: b)) :
    Code.At program (here + a.length + 1) b := h.right.tail

theorem last (h : Code.At program here (a ++ i :: b)) : program[here + a.length]? = some i :=
  h.right.head

end Code.At

/-! ## Pages with the programs of their trees -/

namespace Renderer

/-- The program of the page is the code of its tree, which stands in the source. -/
structure Ready (r : Renderer) (folding : Bool) (p : Page) : Prop where
  program : r.program p = (p.body.code folding 0).toArray
  placed : p.body.Placed p.source.toList

variable {r : Renderer} {folding : Bool} {p : Page}

theorem Ready.at_start (h : r.Ready folding p) :
    Code.At (r.program p) 0 (p.body.code folding 0) := h.program ▸ Code.At.whole _

theorem Ready.at_end (h : r.Ready folding p) :
    (r.program p)[0 + (p.body.code folding 0).length]? = none := by
  simp [h.program]

theorem Ready.fits (h : r.Ready folding p) :
    ∀ i ∈ r.program p, i.Fits p.source.toList p.body.Includes := by
  intro i hi
  rw [h.program, List.mem_toArray] at hi
  exact Body.code_fits h.placed (fun _ hkey => hkey) 0 i hi

end Renderer

/-! ## States -/

namespace Rendering

variable (s : Rendering) (place place' : Nat) (m m' : Machine.State)

@[simp] theorem page_goTo : (s.goTo place m).current.page = s.current.page := rfl
@[simp] theorem place_goTo : (s.goTo place m).current.place = place := rfl
@[simp] theorem callers_goTo : (s.goTo place m).callers = s.callers := rfl

end Rendering

/-! ## The end of a rendering -/

namespace Renderer

variable (r : Renderer) (data : Value)

def finishTurn : Turn → Outcome Output
  | .going s => r.finish data s
  | .ended o => o

theorem finish_eq (s : Rendering) : r.finish data s = r.finishTurn data (r.step data s) := by
  have : Nonempty (Outcome Output) := ⟨.stuck s.out⟩
  unfold finish
  rw [repeatM_eq_of_monadTail]
  cases h : r.step data s <;> simp only [repeatM.body, h, Turn.toSum] <;> rfl

def contextAt (s : Rendering) : Context := r.context s.current.page (s.around data)

variable {r data} {s : Rendering} {here : Nat} {i : Instr} {m : Machine.State}

theorem step_goTo (hi : (r.program s.current.page)[here]? = some i) :
    r.step data (s.goTo here m) =
      r.follow (s.goTo here m) i.span (exec (r.contextAt data s) i m) := by
  unfold step
  rw [Rendering.page_goTo, Rendering.place_goTo, hi]
  rfl

theorem finish_goTo (hi : (r.program s.current.page)[here]? = some i) :
    r.finish data (s.goTo here m) =
      r.finishTurn data (r.follow (s.goTo here m) i.span (exec (r.contextAt data s) i m)) := by
  rw [finish_eq, step_goTo hi]

theorem follow_goTo (m' : Machine.State) (span : Span) (o : Outcome Move) :
    r.follow (s.goTo here m) span o = r.follow (s.goTo here m') span o := by
  cases o with
  | done move => cases move <;> rfl
  | _ => rfl

/-- How a rendering ends that goes on at a place of the current page after some work. -/
def finishAt (r : Renderer) (data : Value) (s : Rendering) (place : Nat) :
    Outcome Machine.State → Outcome Output
  | .done m => r.finish data (s.goTo place m)
  | .failed h out => .failed (h.map s.sign) out
  | .stuck out => .stuck out

theorem finishTurn_next (span : Span) (o : Outcome Machine.State) :
    r.finishTurn data (r.follow (s.goTo here m) span (o.bind fun m => .done (.next m))) =
      r.finishAt data s (here + 1) o := by
  cases o <;> rfl

theorem finish_next (hi : (r.program s.current.page)[here]? = some i) (o : Outcome Machine.State)
    (he : exec (r.contextAt data s) i m = o.bind fun m => .done (.next m)) :
    r.finish data (s.goTo here m) = r.finishAt data s (here + 1) o := by
  rw [finish_goTo hi, he, finishTurn_next]

end Renderer

end Stencil

import Stencil.Proofs.Rendering.Reaches
/-!
# How a rendering comes to a halt

The output refuses something, an instruction raises an error itself, a callback does, or a builtin panics.
The errors that are raised get a place in the source of the current page, if they have none.
-/

namespace Stencil

/-! ## Work that fails -/

namespace Outcome

def Failing (P : Halt Error → Output → Prop) : Outcome α → Prop
  | .failed h out => P h out
  | _ => True

variable {P : Halt Error → Output → Prop} {m : Machine.State}

theorem Failing.bind {o : Outcome α} {f : α → Outcome β} (h : o.Failing P)
    (hf : ∀ a, o = .done a → (f a).Failing P) : (o.bind f).Failing P := by
  cases o with
  | done a => exact hf a rfl
  | failed halt out => exact h
  | stuck out => trivial

theorem failing_ofExcept {x : Except (Halt Error) α} (h : ∀ halt, x = .error halt → P halt m.out) :
    (m.ofExcept x).Failing P := by
  cases x with
  | ok a => trivial
  | error halt => exact h halt rfl

theorem failing_demand {x : Option α} : (m.demand x).Failing P := by
  cases x <;> trivial

theorem failing_pop : m.pop.Failing P := by
  unfold Machine.State.pop
  split <;> trivial

theorem failing_turn : m.turn.Failing P := by
  unfold Machine.State.turn
  split
  · trivial
  · split <;> trivial

end Outcome

/-- The error is a mere fault, or some callback returns it. -/
inductive Registry.Raises (functions : Registry) : Error → Prop
  | fault (f : Fault) : Raises functions (.ofFault f)
  | callback {name : String} {f : Callback} {args : Arguments} {raised : Error} :
    functions.lookup name args.length = some f → f args = .error raised → Raises functions raised

theorem Registry.lookup_of_fixed {functions : Registry} {name : String} {n : Nat} {f : Callback}
    (h : functions.fixed? name n = some f) : functions.lookup name n = some f := by
  rw [lookup, h]
  rfl

namespace Machine

/-- What brings an instruction to a halt, and what there is of the output by then. -/
inductive Halts (c : Context) (i : Instr) (m : State) : Halt Error → Output → Prop
  | refused {out : Output} : out.failure?.isSome → Halts c i m (.raised (.ofFault .unformatted)) out
  | raised {err : Error} {span : Span} {out : Output} : c.functions.Raises err →
    span.Inside c.source.toList → Halts c i m (.raised (c.place span err)) out
  | panicked {f : Builtin} {n : Nat} {args : Arguments} {m' : State} {p : Panic} {out : Output} :
    i.op = .apply f n → m.fetchAll c i.operand n = .done (args, m') →
      f.apply c.sorting args = .error (.panic p) → Halts c i m (.panic p) out

variable {c : Context} {l : Layer} {m m' : State} {span place : Span} {name : String}
  {args : Arguments} {v : Value} {i : Instr} {keys : String → Prop} {halt : Halt Error} {out : Output}

/-! ## Single operations -/

theorem halts_fault (f : Fault) (h : span.Inside c.source.toList) :
    Halts c i m (.raised (c.fault f span)) out := .raised (.fault f) h

theorem lookup_halts (h : span.Inside c.source.toList) (hfails : c.lookup l name span = .error halt) :
    Halts c i m halt out := by
  unfold Context.lookup at hfails
  split at hfails
  · cases hfails
  · split at hfails
    · cases hfails
      exact halts_fault _ h
    · next f hf =>
      cases hresult : f [] with
      | ok v =>
        rw [hresult] at hfails
        cases hfails
      | error err =>
        rw [hresult] at hfails
        cases hfails
        exact .raised (@Registry.Raises.callback _ _ _ [] _ (Registry.lookup_of_fixed hf) hresult) h

theorem call_halts (h : span.Inside c.source.toList) (hfails : c.call name args span = .error halt) :
    Halts c i m halt out := by
  unfold Context.call at hfails
  split at hfails
  · cases hfails
    exact halts_fault _ h
  · next f hf =>
    cases hresult : f args with
    | ok v =>
      rw [hresult] at hfails
      cases hfails
    | error err =>
      rw [hresult] at hfails
      cases hfails
      exact .raised (.callback hf hresult) h

theorem apply_halts {f : Builtin} {n : Nat} (hop : i.op = .apply f n)
    (hargs : m.fetchAll c i.operand n = .done (args, m')) (h : span.Inside c.source.toList)
    (hfails : c.apply f args span = .error halt) : Halts c i m halt out := by
  unfold Context.apply at hfails
  cases hresult : f.apply c.sorting args with
  | ok v =>
    rw [hresult] at hfails
    cases hfails
  | error halt' =>
    rw [hresult] at hfails
    cases hfails
    cases halt' with
    | raised fault => exact halts_fault fault h
    | panic p => exact .panicked hop hargs hresult

theorem isDefined_halts (h : span.Inside c.source.toList)
    (hfails : c.isDefined l v span = .error halt) : Halts c i m halt out := by
  unfold Context.isDefined at hfails
  split at hfails <;> cases hfails
  exact halts_fault _ h

theorem frame?_halts {binder : Binder Word} (h : span.Inside c.source.toList)
    (hbinder : binder.span.Inside c.source.toList)
    (hfails : c.frame? l binder v span = .error halt) : Halts c i m halt out := by
  unfold Context.frame? at hfails
  split at hfails <;> cases hfails
  · exact halts_fault _ h
  · exact halts_fault _ hbinder

theorem binder?_inside {binder : Binder Span} {words : Binder Word}
    (h : binder.Inside c.source.toList) (hwords : c.binder? binder = some words) :
    words.span.Inside c.source.toList := by
  cases binder with
  | item name =>
    obtain ⟨text, -, hwords⟩ := Option.bind_eq_some_iff.mp hwords
    cases hwords
    exact h
  | pair key value =>
    obtain ⟨text, -, hwords⟩ := Option.bind_eq_some_iff.mp hwords
    obtain ⟨text', -, hwords⟩ := Option.bind_eq_some_iff.mp hwords
    cases hwords
    exact h.1.join h.2

theorem failure?_of_write {o o' : Output} {text : String} (h : o.write text = (false, o')) :
    o'.failure?.isSome := by
  unfold Output.write at h
  split at h
  · cases h
  · split at h <;> cases h
    rfl

open Outcome

theorem write_failing {text : String} : (m'.write text).Failing (Halts c i m) := by
  unfold State.write
  split
  · trivial
  · next hwrite => exact .refused (failure?_of_write hwrite)

theorem fetch_failing {o : Operand} (h : o.Inside c.source.toList) :
    (m'.fetch c o).Failing (Halts c i m) := by
  cases o with
  | top => exact failing_pop
  | literal v => trivial
  | name place =>
    refine failing_demand.bind fun text _ => failing_ofExcept fun halt hfails => ?_
    cases hlookup : c.lookup m'.layer text place with
    | ok v =>
      rw [hlookup] at hfails
      cases hfails
    | error halt' =>
      rw [hlookup] at hfails
      cases hfails
      exact lookup_halts h hlookup

theorem fetchAll_failing {o : Operand} (h : o.Inside c.source.toList) (n : Nat) :
    (m'.fetchAll c o n).Failing (Halts c i m) := by
  cases n with
  | zero => trivial
  | succ n =>
    refine (fetch_failing h).bind fun a _ => ?_
    dsimp only
    split <;> trivial

theorem ofResult_failing {x : Except (Halt Error) Value}
    (h : ∀ halt, x = .error halt → Halts c i m halt m'.out) :
    (Move.ofResult m' x).Failing (Halts c i m) := by
  cases x with
  | ok v => trivial
  | error halt => exact h halt rfl

theorem decide_failing {decisive : Bool} {target : Nat} :
    (Move.decide m' decisive target).Failing (Halts c i m) :=
  failing_pop.bind fun _ _ => trivial

/-! ## One instruction -/

theorem exec_halts (h : i.Fits c.source.toList keys) : (exec c i m).Failing (Halts c i m) := by
  obtain ⟨op, o, span⟩ := i
  obtain ⟨hop, ho, hspan⟩ := h
  unfold exec
  cases op with
  | text place => exact failing_demand.bind fun _ _ => write_failing.bind fun _ _ => trivial
  | emit => exact (fetch_failing ho).bind fun _ _ => write_failing.bind fun _ _ => trivial
  | push => exact (fetch_failing ho).bind fun _ _ => trivial
  | apply f n =>
    exact (fetchAll_failing ho n).bind fun _ hargs =>
      ofResult_failing fun _ hfails => apply_halts rfl hargs hspan hfails
  | defined =>
    exact (fetch_failing ho).bind fun _ _ => ofResult_failing fun _ => isDefined_halts hspan
  | fallback =>
    refine failing_pop.bind fun a _ => ?_
    cases o with
    | top => exact failing_pop.bind fun _ _ => trivial
    | literal v => trivial
    | name place =>
      refine failing_demand.bind fun text _ => ?_
      split <;> trivial
  | call place n =>
    exact failing_demand.bind fun _ _ => (fetchAll_failing ho n).bind fun _ _ =>
      ofResult_failing fun _ => call_halts hspan
  | inclusion key => trivial
  | jump t => trivial
  | jumpUnless t => exact (fetch_failing ho).bind fun _ _ => trivial
  | jumpIfFalse t => exact decide_failing
  | jumpIfTrue t => exact decide_failing
  | loopStart binder stop =>
    refine (fetch_failing ho).bind fun a _ => failing_demand.bind fun words hwords => ?_
    have hbinder : c.binder? binder = some words := by
      cases hb : c.binder? binder with
      | none =>
        rw [hb] at hwords
        cases hwords
      | some words' =>
        rw [hb] at hwords
        cases hwords
        rfl
    exact (failing_ofExcept fun _ => frame?_halts hspan (binder?_inside hop hbinder)).bind
      fun _ _ => trivial
  | loopNext start => exact failing_turn.bind fun _ _ => trivial
  | set path => exact (fetch_failing ho).bind fun _ _ => trivial

end Machine

/-! ## One step -/

namespace Renderer

def Applies (r : Renderer) (data : Value) (s : Rendering) (f : Builtin) (args : Arguments) : Prop :=
  ∃ i n m, (r.program s.current.page)[s.current.place]? = some i ∧ i.op = .apply f n ∧
    s.machine.fetchAll (r.contextAt data s) i.operand n = .done (args, m)

/-- Why the step from a state is the last one, and comes to no result. -/
inductive Stops (r : Renderer) (data : Value) (s : Rendering) : Halt Error → Output → Prop
  | refused {out : Output} : out.failure?.isSome →
    Stops r data s (.raised (s.sign (.ofFault .unformatted))) out
  | raised {err : Error} {span : Span} {out : Output} : r.functions.Raises err →
    span.Inside s.current.page.source.toList →
      Stops r data s (.raised (s.sign (err.orAt s.current.page.source span))) out
  | panicked {f : Builtin} {args : Arguments} {p : Panic} {out : Output} : r.Applies data s f args →
    f.apply r.sorting args = .error (.panic p) → Stops r data s (.panic p) out

variable {r : Renderer} {data : Value} {s : Rendering} {halt : Halt Error} {out : Output}

theorem enter_stops {key : String} {span : Span} (hspan : span.Inside s.current.page.source.toList)
    (h : r.enter s key span = .ended (.failed halt out)) : r.Stops data s halt out := by
  unfold enter at h
  split at h
  · cases h
    exact .raised (.fault _) hspan
  · split at h
    · cases h
      exact .raised (.fault _) hspan
    · cases h

theorem step_stops
    (hfits : ∀ i ∈ r.program s.current.page,
      i.Fits s.current.page.source.toList s.current.page.body.Includes)
    (h : r.step data s = .ended (.failed halt out)) : r.Stops data s halt out := by
  unfold step at h
  split at h
  · unfold leave at h
    split at h <;> cases h
  · next i hi =>
    have hfit := hfits i (Array.mem_of_getElem? hi)
    have hexec := Machine.exec_halts (c := r.context s.current.page (s.around data))
      (m := s.machine) hfit
    cases hresult : Machine.exec (r.context s.current.page (s.around data)) i s.machine with
    | done move =>
      rw [hresult] at h
      cases move with
      | next m => cases h
      | jump target m => cases h
      | insert key m =>
        obtain ⟨-, rfl⟩ := Machine.exec_insert hresult
        exact enter_stops hfit.span h
    | failed halt' out' =>
      rw [hresult] at h hexec
      cases h
      cases hexec with
      | refused hout => exact .refused hout
      | raised hraises hspan => exact .raised hraises hspan
      | panicked hop hargs hpanic => exact .panicked ⟨_, _, _, hi, hop, hargs⟩ hpanic
    | stuck out' =>
      rw [hresult] at h
      cases h

end Renderer

end Stencil

import Stencil.Grammar.Callee
import Stencil.Proofs.Dict
import Stencil.Proofs.Simulation.Expr
/-!
# What a call means

Among the functions of one name the number of arguments decides. A callback for exactly so many comes
first, then the builtin that takes so many, then the callback that takes any number.
-/

namespace Stencil

open Machine

inductive Routine where
  | callback (f : Callback)
  | builtin (f : Builtin)
  | defined
  | fallback

def Callee.routine? : Callee → Option Routine
  | .builtin f => some (.builtin f)
  | .defined => some .defined
  | .fallback => some .fallback
  | .callback => none

/-! ## Callbacks -/

namespace Overloads

def callback? (o : Overloads) : Arity → Option Callback
  | .fixed n => o.fixed? n
  | .variadic => o.variadic

variable {n m : Nat} {f : Callback} {o : Overloads} {arity arity' : Arity}

theorem lookup_cons_ne (h : m ≠ n) (fixed : List (Nat × Callback)) :
    ((n, f) :: fixed).lookup m = fixed.lookup m := by
  rw [List.lookup_cons, beq_false_of_ne h]

theorem lookup_insertFixed_self (fixed : List (Nat × Callback)) :
    (insertFixed n f fixed).lookup n = some f := by
  induction fixed with
  | nil => exact List.lookup_cons_self
  | cons entry fixed ih =>
    unfold insertFixed
    split
    · exact List.lookup_cons_self
    · split
      · exact List.lookup_cons_self
      · next hne => rw [lookup_cons_ne hne, ih]

theorem lookup_insertFixed_ne (h : m ≠ n) (fixed : List (Nat × Callback)) :
    (insertFixed n f fixed).lookup m = fixed.lookup m := by
  induction fixed with
  | nil => exact lookup_cons_ne h []
  | cons entry fixed ih =>
    unfold insertFixed
    split
    · exact lookup_cons_ne h _
    · split
      · next heq => rw [lookup_cons_ne h, lookup_cons_ne (heq ▸ h)]
      · rw [List.lookup_cons, List.lookup_cons, ih]

theorem callback?_add_self : (o.add arity f).callback? arity = some f := by
  cases arity with
  | fixed n => exact lookup_insertFixed_self o.fixed
  | variadic => rfl

theorem callback?_add_ne (h : arity' ≠ arity) :
    (o.add arity f).callback? arity' = o.callback? arity' := by
  cases arity with
  | fixed n =>
    cases arity' with
    | fixed m =>
      have hm : m ≠ n := fun heq => h (congrArg Arity.fixed heq)
      exact lookup_insertFixed_ne hm o.fixed
    | variadic => rfl
  | variadic =>
    cases arity' with
    | fixed m => rfl
    | variadic => exact absurd rfl h

end Overloads

namespace Registry

def callback? (callbacks : Registry) (name : String) (arity : Arity) : Option Callback :=
  (callbacks.find? name).bind (·.callback? arity)

def Names (callbacks : Registry) (name : String) : Prop :=
  ∃ arity, (callbacks.callback? name arity).isSome

/-- The function that a name means in a call with `n` arguments. -/
def routine? (callbacks : Registry) (name : String) (n : Nat) : Option Routine :=
  ((callbacks.callback? name (.fixed n)).map .callback).or
    (((Callee.builtin? name).bind fun (arity, f) => if arity = n then f.routine? else none).or
      ((if n = 0 then none else callbacks.callback? name .variadic).map .callback))

theorem routine?_eq (callbacks : Registry) (name : String) (n : Nat) : callbacks.routine? name n =
    ((callbacks.fixed? name n).map .callback).or
      (((Callee.builtin? name).bind fun (arity, f) => if arity = n then f.routine? else none).or
        ((callbacks.variadic? name n).map .callback)) := rfl

variable {callbacks : Registry} {name name' : String} {arity arity' : Arity} {f : Callback}

theorem callback?_add_self : (callbacks.add name arity f).callback? name arity = some f := by
  rw [callback?, add, Dict.find?_insert_self, Option.bind_some, Overloads.callback?_add_self]

theorem callback?_add_ne (h : ¬ (name' = name ∧ arity' = arity)) :
    (callbacks.add name arity f).callback? name' arity' = callbacks.callback? name' arity' := by
  rw [callback?, callback?, add]
  by_cases hname : name' = name
  · subst hname
    have harity : arity' ≠ arity := fun harity => h ⟨rfl, harity⟩
    rw [Dict.find?_insert_self, Option.bind_some, Overloads.callback?_add_ne harity]
    cases callbacks.find? name' with
    | none => cases arity' <;> rfl
    | some o => rfl
  · rw [Dict.find?_insert_ne hname]

def Filled (callbacks : Registry) : Prop := ∀ name, callbacks.has name → callbacks.Names name

theorem has_of_names (h : callbacks.Names name) : callbacks.has name := by
  obtain ⟨arity, h⟩ := h
  obtain ⟨f, hf⟩ := Option.isSome_iff_exists.mp h
  obtain ⟨o, ho, -⟩ := Option.bind_eq_some_iff.mp hf
  exact Dict.has_of_find? ho

theorem Filled.add (h : callbacks.Filled) (name : String) (arity : Arity) (f : Callback) :
    (callbacks.add name arity f).Filled := by
  intro name' hname'
  by_cases hname : name' = name
  · subst hname
    refine ⟨arity, ?_⟩
    rw [callback?_add_self]
    rfl
  · rw [Registry.add, Dict.has, Dict.find?_insert_ne hname] at hname'
    obtain ⟨arity', hold⟩ := h name' hname'
    refine ⟨arity', ?_⟩
    rwa [callback?_add_ne fun heq => hname heq.1]

end Registry

/-! ## What a function does -/

def Routine.run (c : Context) (l : Layer) (args : Arguments) : Routine → Except (Halt Error) Value
  | .callback f => (f args).mapError .raised
  | .builtin f => (f.apply c.sorting args).mapError (.map .ofFault)
  | .defined =>
    ((args.string 0).map fun name => .bool ((c.scope l).find? (c.paths.split name)).isSome).mapError
      fun e => .raised (.ofFault e)
  | .fallback => (args.get 0).mapError fun e => .raised (.ofFault e)

/-- The result of a call for some arguments. An error without a place is reported where the call
stands. -/
def Machine.Context.dispatch (c : Context) (l : Layer) (name : String) (args : Arguments)
    (span : Span) : Except (Halt Error) Value :=
  match c.functions.routine? name args.length with
  | some t => (t.run c l args).mapError (.map (c.place span))
  | none => .error (.raised (c.fault (.unknownFunction name args.length) span))

/-! ## The choice of the compiler -/

namespace Callee

variable {callbacks : Registry} {name : String} {n arity : Nat} {f : Callee} {fault : Fault}

theorem builtin?_cases (h : builtin? name = some (arity, f)) :
    (f = .fallback ∧ arity = 2) ∨ (f = .defined ∧ arity = 1) ∨ ∃ g, f = .builtin g := by
  have hmem : (name, arity, f) ∈ builtins := Dict.mem_of_find? h
  rw [builtins, List.mem_cons, List.mem_cons, List.mem_map] at hmem
  rcases hmem with heq | heq | ⟨entry, -, heq⟩
  · cases heq
    exact .inl ⟨rfl, rfl⟩
  · cases heq
    exact .inr (.inl ⟨rfl, rfl⟩)
  · cases heq
    exact .inr (.inr ⟨_, rfl⟩)

theorem routine?_of_builtin? (h : builtin? name = some (arity, f)) : ∃ t, f.routine? = some t := by
  rcases builtin?_cases h with ⟨rfl, -⟩ | ⟨rfl, -⟩ | ⟨g, rfl⟩ <;> exact ⟨_, rfl⟩

theorem variadic?_eq_none (h : callbacks.has name = false) : callbacks.variadic? name n = none := by
  have hnone : callbacks.find? name = none := by simpa [Dict.has] using h
  simp [Registry.variadic?, hnone]

theorem routine?_of_fixed? (h : callbacks.fixed? name n = none) (hb : builtin? name = none) :
    callbacks.routine? name n = (callbacks.variadic? name n).map .callback := by
  simp [Registry.routine?_eq, h, hb]

theorem routine?_of_arity (h : callbacks.fixed? name n = none) (hb : builtin? name = some (arity, f))
    (hn : arity ≠ n) : callbacks.routine? name n = (callbacks.variadic? name n).map .callback := by
  simp [Registry.routine?_eq, h, hb, hn]

theorem routine?_of_resolve (h : resolve callbacks name n = .ok f) (hf : f ≠ .callback) :
    callbacks.routine? name n = f.routine? ∧ builtin? name = some (n, f) := by
  unfold resolve at h
  split at h
  · cases h
    exact absurd rfl hf
  · next hfixed =>
    have hnone : callbacks.fixed? name n = none := by simpa using hfixed
    split at h
    · cases h
      exact absurd rfl hf
    · next arity g hb =>
      split at h
      · next harity =>
        cases h
        cases harity
        obtain ⟨t, ht⟩ := routine?_of_builtin? hb
        refine ⟨?_, hb⟩
        simp [Registry.routine?_eq, hnone, hb, ht]
      · split at h <;> cases h
        exact absurd rfl hf

theorem routine?_of_callback (h : resolve callbacks name n = .ok .callback) :
    callbacks.routine? name n = (callbacks.lookup name n).map .callback := by
  unfold resolve at h
  rw [Registry.lookup, Option.map_or]
  split at h
  · next hfixed =>
    obtain ⟨g, hg⟩ := Option.isSome_iff_exists.mp hfixed
    simp [Registry.routine?_eq, hg]
  · next hfixed =>
    have hnone : callbacks.fixed? name n = none := by simpa using hfixed
    rw [hnone, Option.map_none, Option.none_or]
    split at h
    · next hb => exact routine?_of_fixed? hnone hb
    · next arity g hb =>
      split at h
      · cases h
        obtain ⟨t, ht⟩ := routine?_of_builtin? hb
        cases ht
      · next harity => exact routine?_of_arity hnone hb harity

theorem routine?_eq_fallback (h : resolve callbacks name n = .ok f) :
    callbacks.routine? name n = some .fallback ↔ f = .fallback := by
  cases f with
  | callback =>
    rw [routine?_of_callback h]
    cases callbacks.lookup name n <;> simp
  | _ => simp [(routine?_of_resolve h nofun).1, routine?]

theorem resolve_error_iff : resolve callbacks name n = .error fault ↔
    callbacks.routine? name n = none ∧ callbacks.has name = false ∧
      ∃ arity f, builtin? name = some (arity, f) ∧ fault = .wrongArity name arity n := by
  constructor
  · intro h
    unfold resolve at h
    split at h
    · cases h
    · next hfixed =>
      have hnone : callbacks.fixed? name n = none := by simpa using hfixed
      split at h
      · cases h
      · next arity f hb =>
        split at h
        · cases h
        · next harity =>
          split at h
          · cases h
          · next hhas =>
            cases h
            have hhas' : callbacks.has name = false := by simpa using hhas
            refine ⟨?_, hhas', arity, f, hb, rfl⟩
            rw [routine?_of_arity hnone hb harity, variadic?_eq_none hhas', Option.map_none]
  · rintro ⟨hroutine, hhas, arity, f, hb, rfl⟩
    obtain ⟨t, ht⟩ := routine?_of_builtin? hb
    rw [Registry.routine?_eq, hb, Option.or_eq_none_iff, Option.map_eq_none_iff] at hroutine
    have harity : arity ≠ n := by
      rintro rfl
      simp [ht] at hroutine
    simp [resolve, hroutine.1, hb, harity, hhas]

/-! ## The value of a call -/

variable {c : Context} {l : Layer} {word : Word} {args : List Expr} {span : Span} {vs : List Value}
  {err : Halt Error}

theorem length_of_evalAll (h : Expr.evalAll c l args = .ok vs) : vs.length = args.length := by
  induction args generalizing vs with
  | nil =>
    cases h
    rfl
  | cons e rest ih =>
    obtain ⟨v, -, h⟩ := except_ok_of_bind h
    obtain ⟨ws, hws, h⟩ := except_ok_of_bind h
    cases h
    rw [List.length_cons, List.length_cons, ih hws]

theorem evalAll_cons (e : Expr) (rest : List Expr) : Expr.evalAll c l (e :: rest) = (do
    let v ← e.eval c l
    return v :: (← Expr.evalAll c l rest)) := by rw [Expr.evalAll]

theorem args_of_defined (h : resolve callbacks name args.length = .ok .defined) :
    ∃ arg, args = [arg] := by
  obtain ⟨-, hb⟩ := routine?_of_resolve h nofun
  rcases builtin?_cases hb with ⟨heq, -⟩ | ⟨-, hlength⟩ | ⟨g, heq⟩
  · cases heq
  · exact List.length_eq_one_iff.mp hlength
  · cases heq

theorem args_of_fallback (h : resolve callbacks name args.length = .ok .fallback) :
    ∃ first second, args = [first, second] := by
  obtain ⟨-, hb⟩ := routine?_of_resolve h nofun
  rcases builtin?_cases hb with ⟨-, hlength⟩ | ⟨heq, -⟩ | ⟨g, heq⟩
  · match args, hlength with
    | [first, second], _ => exact ⟨first, second, rfl⟩
  · cases heq
  · cases heq

theorem eval_fallback_ok {first second : Expr} {v w : Value} (hv : first.eval c l = .ok v)
    (hw : second.eval c l = .ok w) : (Expr.fallback first second span).eval c l = .ok v := by
  cases ho : first.operand? with
  | some o =>
    rw [Expr.eval_fallback_operand ho, hv, hw]
    rfl
  | none =>
    rw [Expr.eval_fallback ho, hv, hw]
    rfl

theorem node_callback : callback.node word args span = .call word args span := rfl

theorem eval_node (h : resolve c.functions word.text args.length = .ok f)
    (hvs : Expr.evalAll c l args = .ok vs) :
    (f.node word args span).eval c l = c.dispatch l word.text vs span := by
  have hlength := length_of_evalAll hvs
  unfold Machine.Context.dispatch
  rw [hlength]
  cases f with
  | builtin g =>
    rw [(routine?_of_resolve h nofun).1, node, Expr.eval, hvs, except_ok_bind, Context.apply]
    simp only [routine?, Routine.run]
    cases g.apply c.sorting vs with
    | ok v => rfl
    | error halt => cases halt <;> rfl
  | defined =>
    obtain ⟨arg, rfl⟩ := args_of_defined h
    rw [(routine?_of_resolve h nofun).1]
    rw [evalAll_cons] at hvs
    obtain ⟨v, hv, hvs⟩ := except_ok_of_bind hvs
    cases hvs
    rw [node, Expr.eval, hv]
    simp only [routine?, Routine.run, Context.isDefined, except_ok_bind]
    cases Arguments.string [v] 0 <;> rfl
  | fallback =>
    obtain ⟨first, second, rfl⟩ := args_of_fallback h
    rw [(routine?_of_resolve h nofun).1]
    rw [evalAll_cons, evalAll_cons] at hvs
    obtain ⟨v, hv, hvs⟩ := except_ok_of_bind hvs
    obtain ⟨ws, hws, hvs⟩ := except_ok_of_bind hvs
    obtain ⟨w, hw, hws⟩ := except_ok_of_bind hws
    cases hws
    cases hvs
    -- a name in front is looked up last, which makes no difference once both have got values
    exact eval_fallback_ok hv hw
  | callback =>
    rw [routine?_of_callback h, node_callback, Expr.eval, hvs, except_ok_bind, Context.call, hlength]
    cases c.functions.lookup word.text args.length with
    | none => rfl
    | some g =>
      simp only [Option.map_some, Routine.run]
      cases g vs <;> rfl

theorem eval_node_error (h : resolve c.functions word.text args.length = .ok f)
    (hf : f ≠ .fallback) (herr : Expr.evalAll c l args = .error err) :
    (f.node word args span).eval c l = .error err := by
  cases f with
  | builtin g =>
    rw [node, Expr.eval, herr]
    rfl
  | defined =>
    obtain ⟨arg, rfl⟩ := args_of_defined h
    rw [evalAll_cons] at herr
    cases hv : arg.eval c l with
    | error e =>
      rw [hv] at herr
      cases herr
      rw [node, Expr.eval, hv]
      rfl
    | ok v =>
      rw [hv] at herr
      cases herr
  | fallback => exact absurd rfl hf
  | callback =>
    rw [node_callback, Expr.eval, herr]
    rfl

theorem eval_fallback_name {second : Expr} {w : Value} (hname : (Expr.name word).eval c l = .error err)
    (hw : second.eval c l = .ok w) : (Expr.fallback (.name word) second span).eval c l = .ok w := by
  rw [Expr.eval_fallback_operand rfl, hw, hname]
  rfl

end Callee

end Stencil

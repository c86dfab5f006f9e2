import Stencil.Proofs.Calling.Outline
import Stencil.Proofs.Calling.Routine
import Stencil.Proofs.Compiling.Statements
/-!
# Calls that are refused

The compiler refuses a call that means nothing if its name is a builtin's and no callback has it. This is
the only reason for the error about a number of arguments.
-/

namespace Stencil

namespace Grammar

variable {g : Grammar} {c : CallSite} {x : Expr} {r : Reject}

theorem node_eq_ok : g.node c = .ok x ↔ ∃ f,
    Callee.resolve g.functions c.name.text c.args.length = .ok f ∧
      f.node c.name.word c.args c.span = x := by
  unfold node callPart CallSite.span
  cases Callee.resolve g.functions c.name.text c.args.length <;> simp

theorem node_eq_error : g.node c = .error r ↔ ∃ fault,
    Callee.resolve g.functions c.name.text c.args.length = .error fault ∧
      ⟨fault, c.name.span⟩ = r := by
  unfold node callPart
  cases Callee.resolve g.functions c.name.text c.args.length <;> simp

theorem operand?_of_node (h : g.node c = .ok x) : x.operand? = none := by
  obtain ⟨f, -, rfl⟩ := node_eq_ok.mp h
  unfold Callee.node
  split <;> rfl

end Grammar

namespace Engine

variable {e : Engine} {c : CallSite}

def calls (e : Engine) (source : String) : List CallSite :=
  (e.grammar source).outlineCalls (Token.scan e.markup source)

theorem outline_outlines (e : Engine) (source : String) :
    (e.grammar source).Outlines (e.calls source) (e.outline source) :=
  Grammar.outlineFrom_outlines _ _ _

/-! ## Compiling -/

theorem Reached.filled (h : e.Reached) : e.functions.Filled := by
  induction h with
  | fresh markup loader => exact nofun
  | addTemplate _ _ ih => exact ih
  | addCallback name arity f _ ih => exact ih.add name arity f
  | supply loader _ ih => exact ih
  | limit n _ ih => exact ih

/-- The call means nothing, though a builtin has its name, and no callback has. -/
structure Refused (e : Engine) (c : CallSite) : Prop where
  meaningless : e.functions.routine? c.name.text c.args.length = none
  builtin : (Callee.builtin? c.name.text).isSome
  alone : ¬ e.functions.Names c.name.text

theorem refused_iff (he : e.Reached) {fault : Fault} :
    Callee.resolve e.functions c.name.text c.args.length = .error fault ↔
      e.Refused c ∧ ∃ takes f, Callee.builtin? c.name.text = some (takes, f) ∧
        fault = .wrongArity c.name.text takes c.args.length := by
  -- the compiler asks for a name among the callbacks, and no name is there without one
  have halone : e.functions.has c.name.text = false ↔ ¬ e.functions.Names c.name.text := by
    rw [← Bool.not_eq_true, not_congr]
    exact ⟨he.filled c.name.text, Registry.has_of_names⟩
  rw [Callee.resolve_error_iff, halone]
  constructor
  · rintro ⟨hroutine, hnames, takes, f, hb, hfault⟩
    exact ⟨⟨hroutine, Option.isSome_iff_exists.mpr ⟨_, hb⟩, hnames⟩, takes, f, hb, hfault⟩
  · rintro ⟨⟨hroutine, -, hnames⟩, hfault⟩
    exact ⟨hroutine, hnames, hfault⟩

theorem outline_refused (he : e.Reached) {source : String} (hc : c ∈ e.calls source)
    (h : e.Refused c) : ∃ takes f, Callee.builtin? c.name.text = some (takes, f) ∧
      (e.outline source).fault = some ⟨.wrongArity c.name.text takes c.args.length, c.name.span⟩ := by
  obtain ⟨⟨takes, f⟩, hb⟩ := Option.isSome_iff_exists.mp h.builtin
  have hresolve := (refused_iff he).mpr ⟨h, takes, f, hb, rfl⟩
  have hnode : (e.grammar source).node c = .error _ := Grammar.node_eq_error.mpr ⟨_, hresolve, rfl⟩
  exact ⟨takes, f, hb, (e.outline_outlines source).refused c hc _ hnode⟩

theorem exists_refused (he : e.Reached) {source : String} {r : Reject}
    (hr : (e.outline source).fault = some r) (harity : r.fault.isArity) :
    ∃ c ∈ e.calls source, e.Refused c := by
  obtain ⟨c, hc, hnode⟩ := (e.outline_outlines source).arity r hr harity
  obtain ⟨fault, hresolve, -⟩ := Grammar.node_eq_error.mp hnode
  exact ⟨c, hc, ((refused_iff he).mp hresolve).1⟩

variable {compile : Compile} {source base : String} {us : List Tag} {s s' : Gathering}

theorem compileWith_arity (he : e.Reached)
    (hus : e.resolveAll compile source base (e.outline source).tags s = (.ok us, s')) :
    (∃ err, (e.compileWith compile source base s).1 = .error err ∧ err.fault.isArity) ↔
      ∃ c ∈ e.calls source, e.Refused c := by
  constructor
  · rintro ⟨err, herr, harity⟩
    cases hfault : (e.outline source).fault with
    | none =>
      rw [compileWith_iff.mpr ⟨hfault, us, rfl, hus⟩] at herr
      cases herr
    | some r =>
      rw [compileWith_fault hfault hus] at herr
      cases herr
      exact exists_refused he hfault harity
  · rintro ⟨c, hc, h⟩
    obtain ⟨takes, f, -, hfault⟩ := outline_refused he hc h
    rw [compileWith_fault hfault hus]
    exact ⟨_, rfl, rfl⟩

end Engine

end Stencil

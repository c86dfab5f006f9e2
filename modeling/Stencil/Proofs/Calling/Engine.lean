import Stencil.Proofs.Calling.Pages
import Stencil.Proofs.Calling.Routine
/-!
# Calls in a rendering

A rendering that comes to the code of a call goes on with the value of the function that the call means,
for the values of the arguments, or fails. This holds on all pages that were compiled with the callbacks
of the rendering, among them the includes.
-/

namespace Stencil

open Machine

/-! ## One call -/

namespace Renderer

/-- What a rendering does that is at the beginning of the code of a call, which has some length. -/
structure Invokes (r : Renderer) (data : Value) (s : Rendering) (c : CallSite) (length : Nat) : Prop where
  /-- The arguments have got values, and the function that the call means gives a value for them. -/
  value : ∀ vs v, Expr.evalAll (r.contextAt data s) s.current.layer c.args = .ok vs →
    (r.contextAt data s).dispatch s.current.layer c.name.text vs c.span = .ok v →
      r.finish data s = r.finish data (s.goTo (s.current.place + length) (s.machine.push v))
  failed : ∀ vs halt, Expr.evalAll (r.contextAt data s) s.current.layer c.args = .ok vs →
    (r.contextAt data s).dispatch s.current.layer c.name.text vs c.span = .error halt →
      r.finish data s = .failed (halt.map s.sign) s.out
  /-- The call means nothing. -/
  unknown : ∀ vs, Expr.evalAll (r.contextAt data s) s.current.layer c.args = .ok vs →
    r.functions.routine? c.name.text c.args.length = none →
      ∃ err, r.finish data s = .failed (.raised err) s.out ∧
        err.place = some (s.current.page.source, c.span) ∧
        err.fault.message = s!"function '{c.name.text}' ({c.args.length}) not found"
  /-- An argument has no value, and there is no default for it. -/
  argument : ∀ halt, Expr.evalAll (r.contextAt data s) s.current.layer c.args = .error halt →
    r.functions.routine? c.name.text c.args.length ≠ some .fallback →
      r.finish data s = .failed (halt.map s.sign) s.out
  /-- The default counts for a name that means nothing. -/
  default : ∀ word second w halt, c.args = [.name word, second] →
    r.functions.routine? c.name.text c.args.length = some .fallback →
    (Expr.name word).eval (r.contextAt data s) s.current.layer = .error halt →
    second.eval (r.contextAt data s) s.current.layer = .ok w →
      r.finish data s = r.finish data (s.goTo (s.current.place + length) (s.machine.push w))

variable {r : Renderer} {data : Value} {s : Rendering} {c : CallSite} {f : Callee} {length : Nat}

theorem orInOptional_place (err : Error) (name : Option String) :
    (err.orInOptional name).fault = err.fault ∧ (err.orInOptional name).place = err.place := by
  cases name <;> exact ⟨rfl, rfl⟩

theorem sign_place (s : Rendering) (err : Error) :
    (s.sign err).fault = err.fault ∧ (s.sign err).place = err.place := by
  unfold Rendering.sign
  induction s.current :: s.callers generalizing err with
  | nil => exact ⟨rfl, rfl⟩
  | cons v rest ih =>
    rw [List.foldl_cons, (ih _).1, (ih _).2]
    exact orInOptional_place err v.name

theorem dispatch_unknown {c : Context} {l : Layer} {name : String} {vs : List Value} {span : Span}
    (h : c.functions.routine? name vs.length = none) : c.dispatch l name vs span =
      .error (.raised (.located (.unknownFunction name vs.length) c.source span)) := by
  unfold Context.dispatch
  rw [h]
  rfl

theorem invokes_of_finish (hf : Callee.resolve r.functions c.name.text c.args.length = .ok f)
    (h : r.finish data s = r.finishAt data s (s.current.place + length)
      (s.machine.yield ((f.node c.name.word c.args c.span).eval (r.contextAt data s) s.current.layer))) :
    r.Invokes data s c length := by
  have hvalue {v : Value} (hv : (f.node c.name.word c.args c.span).eval (r.contextAt data s)
      s.current.layer = .ok v) :
      r.finish data s = r.finish data (s.goTo (s.current.place + length) (s.machine.push v)) := by
    rw [h, hv]
    rfl
  have herror {halt : Halt Error} (herr : (f.node c.name.word c.args c.span).eval
      (r.contextAt data s) s.current.layer = .error halt) :
      r.finish data s = .failed (halt.map s.sign) s.out := by
    rw [h, herr]
    rfl
  refine ⟨?_, ?_, ?_, ?_, ?_⟩
  · intro vs v hvs hv
    exact hvalue ((Callee.eval_node hf hvs).trans hv)
  · intro vs halt hvs herr
    exact herror ((Callee.eval_node hf hvs).trans herr)
  · intro vs hvs hnone
    rw [← Callee.length_of_evalAll hvs] at hnone ⊢
    refine ⟨_, herror ((Callee.eval_node hf hvs).trans (dispatch_unknown hnone)), ?_, ?_⟩
    · exact (sign_place s _).2
    · rw [(sign_place s _).1]
      rfl
  · intro halt herr hfallback
    exact herror (Callee.eval_node_error hf (mt (Callee.routine?_eq_fallback hf).mpr hfallback) herr)
  · intro word second w halt hargs hfallback hname hw
    cases (Callee.routine?_eq_fallback hf).mp hfallback
    apply hvalue
    rw [hargs]
    exact Callee.eval_fallback_name hname hw

end Renderer

namespace Engine

/-! ## All calls of a page -/

/-- The calls of the page that a rendering is in. -/
structure Dispatches (e : Engine) (r : Renderer) (data : Value) (s : Rendering) : Prop where
  calls : ∀ c ∈ e.calls s.current.page.source, ∃ x,
    (e.grammar s.current.page.source).node c = .ok x ∧ x.Among s.current.page.body.exprs ∧
    x.Stands s.current.page.code s.current.page.folding ∧
    (Code.At s.current.page.code s.current.place (x.code s.current.page.folding s.current.place) →
      r.Invokes data s c (x.code s.current.page.folding s.current.place).length)
  only : ∀ x : Expr, x.isCall → x.Among s.current.page.body.exprs →
    ∃ c ∈ e.calls s.current.page.source, (e.grammar s.current.page.source).node c = .ok x

variable {e : Engine} {name : Option String} {t : Template} {data : Value} {s : Rendering}

theorem dispatches_of_compiled (h : e.Compiled s.current.page) (hp : s.current.page.Sound) :
    e.Dispatches (e.renderer name t) data s := by
  refine ⟨?_, fun x => call_of_node h hp⟩
  intro c hc
  obtain ⟨x, hx, hmem⟩ := node_of_call h hp hc
  obtain ⟨hstands, hplaced⟩ := stands_of_among hp (Grammar.operand?_of_node hx) hmem
  refine ⟨x, hx, hmem, hstands, ?_⟩
  intro hcode
  obtain ⟨f, hf, rfl⟩ := Grammar.node_eq_ok.mp hx
  apply Renderer.invokes_of_finish hf
  exact Renderer.finish_code _ hplaced s.current.place s.machine hcode

/-- How the compiler deals with the calls of a source whose includes are found. -/
structure Refuses (e : Engine) (source : String) : Prop where
  arity : ∀ (compile : Compile) (base : String) (us : List Tag) (g g' : Gathering),
    e.resolveAll compile source base (e.outline source).tags g = (.ok us, g') →
      ((∃ err, (e.compileWith compile source base g).1 = .error err ∧ err.fault.isArity) ↔
        ∃ c ∈ e.calls source, e.Refused c)
  error : ∀ (compile : Compile) (base : String) (us : List Tag) (g g' : Gathering),
    e.resolveAll compile source base (e.outline source).tags g = (.ok us, g') →
      ∀ c ∈ e.calls source, e.Refused c → ∃ takes f,
        Callee.builtin? c.name.text = some (takes, f) ∧
        (e.compileWith compile source base g).1 =
          .error (.located (.wrongArity c.name.text takes c.args.length) source c.name.span)

theorem refuses_of_reached (he : e.Reached) (source : String) : e.Refuses source := by
  refine ⟨fun compile base us g g' => compileWith_arity he, ?_⟩
  intro compile base us g g' hus c hc h
  obtain ⟨takes, f, hb, hfault⟩ := outline_refused he hc h
  exact ⟨takes, f, hb, congrArg Prod.fst (compileWith_fault hfault hus)⟩

/-- A call means the callback for exactly its number of arguments, or else the builtin that takes so
many, or else the callback for any number. In every state of a rendering whose page was compiled with the
same callbacks, its code does what it means. A call that means nothing fails, while compiling if its name
is only a builtin's, and otherwise while rendering. -/
theorem calls_dispatched (he : e.Reached) :
    (∀ source, e.Refuses source) ∧
    (∀ name t, e.Offers name t → ∀ (data : Value) (out : Output) (s : Rendering),
      (e.renderer name t).Reaches data (.start name t.page out) s →
      e.Compiled s.current.page → e.Dispatches (e.renderer name t) data s) ∧
    (e.UpToDate → ∀ name t p, e.Offers name t → t.Has p → e.Compiled p) := by
  refine ⟨refuses_of_reached he, ?_, ?_⟩
  · intro name t ht data out s hs hcompiled
    have hsound := he.sound_of_offers ht
    exact dispatches_of_compiled hcompiled (hsound.page_sound (reaches_has hsound hs).1)
  · intro huptodate name t p ht hp
    exact (huptodate.fresh ht).compiled hp

/-! ## A callback beside a builtin -/

def calling : Engine :=
  ({ loader := none } : Engine).addCallback "upper" .variadic fun args => .ok (Value.ofNat args.length)

def callSource : String := "\x7b\x7b upper(\"a\", 1) \x7d\x7d"

def callTokens : List Token :=
  [⟨.opening .expr, "\x7b\x7b", ⟨0, 2⟩⟩, ⟨.word, "upper", ⟨3, 8⟩⟩, ⟨.leftParen, "(", ⟨8, 9⟩⟩,
    ⟨.string, "\"a\"", ⟨9, 12⟩⟩, ⟨.comma, ",", ⟨12, 13⟩⟩, ⟨.number, "1", ⟨14, 15⟩⟩,
    ⟨.rightParen, ")", ⟨15, 16⟩⟩, ⟨.closing .expr, "\x7d\x7d", ⟨17, 19⟩⟩]

theorem scan_call : Token.scan .standard callSource = callTokens := by rfl

def upperCall : CallSite :=
  ⟨⟨.word, "upper", ⟨3, 8⟩⟩, [.literal (.string "a") ⟨9, 12⟩, .literal (Value.ofNat 1) ⟨14, 15⟩],
    ⟨15, 16⟩⟩

def callPage : Page :=
  .of true callSource [.output (.call upperCall.name.word upperCall.args upperCall.span) ⟨0, 19⟩]

theorem outline_call : calling.outline callSource = ⟨callPage.tags, none⟩ := by
  have hmarkup : calling.markup = .standard := rfl
  rw [outline, hmarkup, scan_call]
  rfl

theorem calls_call : calling.calls callSource = [upperCall] := by
  have hmarkup : calling.markup = .standard := rfl
  rw [calls, hmarkup, scan_call]
  rfl

theorem calling_compiles : calling.Compiles none callSource "" ⟨callPage, []⟩ := by
  refine ⟨1, .start none, ?_, rfl⟩
  rw [page, compileWith, outline_call]
  rfl


theorem routine_call : calling.functions.routine? "upper" 2 =
    some (.callback fun args => .ok (Value.ofNat args.length)) := by
  have hfixed : calling.functions.callback? "upper" (.fixed 2) = none := by rfl
  have hbuiltin : Callee.builtin? "upper" = some (1, .builtin .upper) := by rfl
  have hvariadic : calling.functions.callback? "upper" .variadic =
      some fun args => .ok (Value.ofNat args.length) := by rfl
  simp [Registry.routine?, hfixed, hbuiltin, hvariadic]

/-- The callback gets both arguments. -/
theorem calling_dispatched : calling.Reached ∧ calling.Offers none ⟨callPage, []⟩ ∧
    (calling.renderer none ⟨callPage, []⟩).finish .null (.start none callPage (.memory "")) =
      (calling.renderer none ⟨callPage, []⟩).finish .null
        ((Rendering.start none callPage (.memory "")).goTo 2 ⟨[Value.ofNat 2], .empty, .memory ""⟩) := by
  have hreached : calling.Reached := .addCallback _ _ _ (.fresh .standard none .stable)
  have hoffers : calling.Offers none ⟨callPage, []⟩ := .source calling_compiles
  refine ⟨hreached, hoffers, ?_⟩
  obtain ⟨-, hdispatches, hfresh⟩ := calls_dispatched hreached
  have hcompiled := hfresh (upToDate_of_no_templates rfl) _ _ callPage hoffers (.inl rfl)
  have hpage := hdispatches _ _ hoffers .null (.memory "") _ .refl hcompiled
  have hmem : upperCall ∈ calling.calls callSource := by simp [calls_call]
  obtain ⟨x, hx, -, -, hinvokes⟩ := hpage.calls upperCall hmem
  have hnode : (calling.grammar callSource).node upperCall =
    .ok (.call upperCall.name.word upperCall.args upperCall.span) := by rfl
  cases hnode.symm.trans hx
  have hargs : Expr.evalAll ((calling.renderer none ⟨callPage, []⟩).contextAt .null
      (.start none callPage (.memory ""))) .empty upperCall.args =
        .ok [.string "a", Value.ofNat 1] := rfl
  have hvalue : ((calling.renderer none ⟨callPage, []⟩).contextAt .null
      (.start none callPage (.memory ""))).dispatch .empty "upper" [.string "a", Value.ofNat 1]
        upperCall.span = .ok (Value.ofNat 2) := by
    have hroutine : ((calling.renderer none ⟨callPage, []⟩).contextAt .null
      (.start none callPage (.memory ""))).functions.routine? "upper"
        [Value.string "a", Value.ofNat 1].length = _ := routine_call
    rw [Context.dispatch, hroutine]
    rfl
  have hcode : Code.At callPage.code 0
      ((Expr.call upperCall.name.word upperCall.args upperCall.span).code true 0) := by
    have hbody : callPage.body.code callPage.folding 0 =
        (Expr.call upperCall.name.word upperCall.args upperCall.span).code true 0 ++
          [Instr.plain .emit ⟨0, 19⟩] := by rfl
    rw [(hreached.sound_of_offers hoffers).root.code_eq, hbody]
    exact (Code.At.whole _).left
  exact (hinvokes hcode).value _ _ hargs hvalue

end Engine

end Stencil

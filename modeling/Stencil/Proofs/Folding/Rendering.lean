import Stencil.Proofs.Folding.Compiling
import Stencil.Proofs.Including.Direct
/-!
# Folding makes no difference

A source compiled without folding gets other programs, in which jumps lead elsewhere. What its
templates mean is read off the tags, so they are rendered to the same output and the same end.
-/

namespace Stencil

theorem Page.unfolded_source (p : Page) : p.unfolded.source = p.source := rfl

theorem Page.unfolded_body (p : Page) : p.unfolded.body = p.body := rfl

namespace Renderer

/-- The second renderer enters the pages of the first one unfolded. -/
structure Unfolds (r r' : Renderer) : Prop where
  functions : r'.functions = r.functions
  sorting : r'.sorting = r.sorting
  paths : r'.paths = r.paths
  limit : r'.limit = r.limit
  page : ∀ key, r'.page? key = (r.page? key).map Page.unfolded

variable {r r' : Renderer}

theorem Unfolds.context_eq (h : r.Unfolds r') (p : Page) (around : Scope) :
    r'.context p.unfolded around = r.context p around := by
  simp only [context, h.functions, h.sorting, h.paths]
  rfl

theorem Unfolds.eval_eq (h : r.Unfolds r') (depth : Nat) (p : Page) (around : Scope)
    (out : Output) : r'.eval depth p.unfolded around out = r.eval depth p around out := by
  induction depth generalizing p around out with
  | zero => rw [eval, eval, h.context_eq, h.limit, Page.unfolded_body, Page.unfolded_source]
  | succ depth ih =>
    rw [eval, eval, h.context_eq, Page.unfolded_body, Page.unfolded_source]
    congr 1
    funext key span layer out
    rw [h.page]
    cases r.page? key with
    | none => rfl
    | some q => exact congrArg (·.orIn key) (ih q _ out)

theorem Unfolds.meaning_eq (h : r.Unfolds r') (name : Option String) (p : Page) (data : Value)
    (out : Output) : r'.meaning name p.unfolded data out = r.meaning name p data out := by
  rw [meaning, meaning, h.limit, h.eval_eq]

end Renderer

namespace Engine

variable {e : Engine} {name : Option String} {t t' : Template} {source base : String}

theorem renderer_unfolds (e : Engine) (name : Option String) (t : Template) :
    (e.renderer name t).Unfolds (e.unfolded.renderer name t.unfolded) := by
  refine ⟨rfl, rfl, rfl, rfl, fun key => ?_⟩
  simp only [renderer, page?, Template.unfolded, unfolded, Dict.find?_mapValues]
  cases t.includes.find? key with
  | some q => rfl
  | none =>
    by_cases hname : name = some key
    · simp [hname]
    · simp only [hname, if_false]
      cases e.templates.find? key <;> rfl

theorem renderInto_of_unfolded (he : e.Sound) (ht : t.Sound name) (ht' : t'.Sound name)
    (h : t.unfolded = t'.unfolded) (data : Value) (out : Output) :
    e.renderInto name t data out = e.renderInto name t' data out := by
  have hmeaning := fun u : Template =>
    (e.renderer_unfolds name u).meaning_eq name u.page data out
  rw [renderInto_meaning he ht, renderInto_meaning he ht', ← hmeaning, ← hmeaning, h]
  congr 1
  exact congrArg Template.page h

/-! ## One source, compiled twice -/

theorem Reached.folding_eq (he : e.Reached) : e.folding = true := by
  induction he with
  | fresh markup loader sorting => rfl
  | addTemplate _ _ ih => exact ih
  | addCallback name arity f _ ih => exact ih
  | supply loader _ ih => exact ih
  | limit n _ ih => exact ih

theorem program_of_compiles (h : e.Compiles name source base t) :
    t.page.code = Emitter.program e.folding t.page.tags := by
  obtain ⟨n, s, hpage, -⟩ := h
  obtain ⟨-, us, -, -, hp, -⟩ := e.page_gathers n _ _ _ _ _ hpage
  rw [hp]
  rfl

def withoutFolding (e : Engine) : Engine := { e with folding := false }

/-- Without folding a source compiles to a template with other programs, or fails with the same error.
The template is rendered to the same output and the same end. -/
theorem folding_transparent (he : e.Reached) (name : Option String) (source base : String) :
    (e.withoutFolding.compileNamed name source base).asked = (e.compileNamed name source base).asked ∧
    ((∃ err, (e.compileNamed name source base).result = .error err ∧
        (e.withoutFolding.compileNamed name source base).result = .error err) ∨
      ∃ t t', (e.compileNamed name source base).result = .ok t ∧
        (e.withoutFolding.compileNamed name source base).result = .ok t' ∧
        t.page.code = Emitter.program true t.page.tags ∧
        t'.page.code = Emitter.program false t.page.tags ∧
        ∀ data out, e.withoutFolding.renderInto name t' data out = e.renderInto name t data out) := by
  have h := e.compileNamed_unfolded name source base
  have h' := e.withoutFolding.compileNamed_unfolded name source base
  have hsame : e.withoutFolding.unfolded = e.unfolded := rfl
  rw [hsame, h] at h'
  cases hc : e.compileNamed name source base with
  | mk result asked =>
    cases hc' : e.withoutFolding.compileNamed name source base with
    | mk result' asked' =>
      rw [hc, hc'] at h'
      -- the results agree once the programs of their pages are forgotten
      obtain ⟨hresult, rfl⟩ := Asking.mk.inj h'
      refine ⟨rfl, ?_⟩
      cases result with
      | error err =>
        cases result' with
        | error err' =>
          cases hresult
          exact .inl ⟨err, rfl, rfl⟩
        | ok t' => cases hresult
      | ok t =>
        cases result' with
        | error err' => cases hresult
        | ok t' =>
          have hcompiles := compiles_of_compileNamed hc
          have hcompiles' := compiles_of_compileNamed hc'
          have hunfolded : t.unfolded = t'.unfolded := Except.ok.inj hresult
          have htags : t.page.tags = t'.page.tags := congrArg (·.page.tags) hunfolded
          have hcode := program_of_compiles hcompiles
          have hcode' := program_of_compiles hcompiles'
          rw [he.folding_eq] at hcode
          refine .inr ⟨t, t', rfl, rfl, hcode, htags ▸ hcode', fun data out => ?_⟩
          exact (renderInto_of_unfolded he.sound (sound_of_compiles he.sound hcompiles)
            (sound_of_compiles (e := e.withoutFolding) he.sound hcompiles') hunfolded data out).symm

theorem compile_medley (hmarkup : e.markup = .standard) (hfunctions : e.functions = []) :
    (e.compile medleySource).result = .ok ⟨medleyPage e.folding, []⟩ := by
  have houtline := outline_medley hmarkup hfunctions
  obtain ⟨n, hfuel⟩ := e.fuel_eq
  refine (compile_iff hfuel).mpr ⟨by rw [houtline], medleyTags, .start none, rfl, ?_⟩
  rw [houtline]
  exact .other nofun (.other nofun (.other nofun (.other nofun (.other nofun .nil))))

/-- In the argument of `default` a push is folded beside the one that is removed. -/
theorem bare_folding : bare.Reached ∧ ∃ t t', (bare.compile medleySource).result = .ok t ∧
    (bare.withoutFolding.compile medleySource).result = .ok t' ∧
    t.page.code.size = 15 ∧ t'.page.code.size = 17 ∧
    bare.withoutFolding.renderInto none t' .null (.memory "") =
      bare.renderInto none t .null (.memory "") := by
  have hcompile := compile_medley (e := bare) rfl rfl
  refine ⟨bare_reached, ?_⟩
  rcases (folding_transparent bare_reached none medleySource "").2 with
    ⟨err, herr, -⟩ | ⟨t, t', ht, ht', -, -, hrender⟩
  · cases hcompile.symm.trans herr
  · have hcompile' := compile_medley (e := bare.withoutFolding) rfl rfl
    refine ⟨t, t', ht, ht', ?_, ?_, hrender .null (.memory "")⟩
    · cases hcompile.symm.trans ht
      cbv
    · cases hcompile'.symm.trans ht'
      cbv

end Engine

end Stencil

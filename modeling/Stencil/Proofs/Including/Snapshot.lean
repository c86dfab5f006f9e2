import Stencil.Proofs.Including.Closure
import Stencil.Proofs.Including.Source
import Stencil.Proofs.Meaning.Page
/-!
# Registered templates are snapshots

A registered template keeps the pages that it was compiled with. Whatever is registered under other
names later on, and wherever sources come from by then, it is rendered as before.
-/

namespace Stencil

inductive Change where
  | addTemplate (name source : String)
  | addCallback (name : String) (arity : Arity) (f : Callback)
  | setLoader (loader : Loader)
  | disableLoader
  | limit (n : Nat)

/-- The change does not register a template under the name. -/
def Change.Spares (name : String) : Change → Prop
  | .addTemplate name' _ => name' ≠ name
  | _ => True

namespace Engine

def change (e : Engine) : Change → Engine
  | .addTemplate name source =>
    match (e.addTemplate name source).result with
    | .ok e' => e'
    | .error _ => e
  | .addCallback name arity f => e.addCallback name arity f
  | .setLoader loader => { e with loader := some loader }
  | .disableLoader => { e with loader := none }
  | .limit n => { e with maxDepth := n }

def changed (e : Engine) (changes : List Change) : Engine := changes.foldl change e

variable {e e' : Engine} {name : Option String} {t : Template}

/-! ## What changes keep -/

theorem addTemplate_cases (e : Engine) (name source : String) :
    (∃ err, (e.addTemplate name source).result = .error err) ∨
      ∃ t, (e.addTemplate name source).result = .ok { e with templates := e.templates.insert name t } ∧
        e.Compiles (some name) source (Path.directory name) t := by
  unfold addTemplate
  cases hc : e.compileNamed (some name) source (Path.directory name) with
  | mk result asked =>
    cases result with
    | error err => exact .inl ⟨err, rfl⟩
    | ok t => exact .inr ⟨t, rfl, compiles_of_compileNamed hc⟩

/-- The engine has been reached, reads its templates and sorts as another one, and holds a template under
a name. -/
structure Holds (e e' : Engine) (name : String) (t : Template) : Prop where
  reached : e.Reached
  markup : e.markup = e'.markup
  sorting : e.sorting = e'.sorting
  template : e.templates.find? name = some t

theorem Holds.change {name : String} (h : e.Holds e' name t) {c : Change} (hc : c.Spares name) :
    (e.change c).Holds e' name t := by
  cases c with
  | addTemplate name' source =>
    rw [Engine.change]
    rcases e.addTemplate_cases name' source with ⟨err, hadd⟩ | ⟨t', hadd, hcompiles⟩
    · rw [hadd]
      exact h
    · rw [hadd]
      exact ⟨.addTemplate h.reached hcompiles, h.markup, h.sorting,
        (Dict.find?_insert_ne (Ne.symm hc)).trans h.template⟩
  | addCallback name' arity f => exact ⟨.addCallback _ _ _ h.reached, h.markup, h.sorting, h.template⟩
  | setLoader loader => exact ⟨.supply _ h.reached, h.markup, h.sorting, h.template⟩
  | disableLoader => exact ⟨.supply _ h.reached, h.markup, h.sorting, h.template⟩
  | limit n => exact ⟨.limit n h.reached, h.markup, h.sorting, h.template⟩

theorem Holds.changes {name : String} (h : e.Holds e' name t) {changes : List Change}
    (hc : ∀ c ∈ changes, c.Spares name) : (e.changed changes).Holds e' name t := by
  induction changes generalizing e with
  | nil => exact h
  | cons c rest ih =>
    rw [List.forall_mem_cons] at hc
    exact ih (h.change hc.1) hc.2

/-! ## Rendering -/

theorem renderer_agree (ht : t.Sound name) (hfunctions : e.functions = e'.functions)
    (hsorting : e.sorting = e'.sorting) (hmarkup : e.markup = e'.markup) :
    (e.renderer name t).Agree (e'.renderer name t) t.Has := by
  refine ⟨hfunctions, hsorting, congrArg Markup.paths hmarkup, fun p hp key hkey => ?_⟩
  obtain ⟨q, hq⟩ := (ht.knows hp hkey).means
  exact ⟨q, hq.has, page?_of_means hq, page?_of_means hq⟩

theorem renderInto_agree (he : e.Reached) (he' : e'.Reached) (ht : e.Offers name t)
    (ht' : e'.Offers name t) (hfunctions : e.functions = e'.functions)
    (hsorting : e.sorting = e'.sorting) (hmarkup : e.markup = e'.markup) (hdepth : e.maxDepth = e'.maxDepth) (data : Value)
    (out : Output) : e.renderInto name t data out = e'.renderInto name t data out := by
  have hagree := renderer_agree (he.sound_of_offers ht) hfunctions hsorting hmarkup
  have hlimit : (e.renderer name t).limit = (e'.renderer name t).limit := hdepth
  rw [renderInto_meaning he.sound (he.sound_of_offers ht) data out,
    renderInto_meaning he'.sound (he'.sound_of_offers ht') data out,
    Renderer.meaning, Renderer.meaning, hlimit, hagree.eval_eq hlimit (.inl rfl) (.refl _)]

/-- A registered template is there after any changes that spare its name. Wherever it is rendered to
and with whatever data, it comes to the same output and the same end, as long as the callbacks and the
depth of includes are the same. -/
theorem registered_unchanged {name : String} (he : e.Reached) (ht : e.templates.find? name = some t)
    {changes : List Change} (hc : ∀ c ∈ changes, c.Spares name)
    (hfunctions : (e.changed changes).functions = e.functions)
    (hdepth : (e.changed changes).maxDepth = e.maxDepth) :
    (e.changed changes).templates.find? name = some t ∧
    (∀ data, (e.changed changes).render (some name) t data = e.render (some name) t data) ∧
    ∀ data k, (e.changed changes).renderTo (some name) t data k = e.renderTo (some name) t data k := by
  have hholds : (e.changed changes).Holds e name t := Holds.changes ⟨he, rfl, rfl, ht⟩ hc
  have hinto : ∀ data out,
      (e.changed changes).renderInto (some name) t data out = e.renderInto (some name) t data out :=
    renderInto_agree hholds.reached he (.registered hholds.template) (.registered ht) hfunctions
      hholds.sorting hholds.markup hdepth
  refine ⟨hholds.template, fun data => ?_, fun data k => ?_⟩
  · rw [render, render, hinto]
  · rw [renderTo, renderTo, hinto]

theorem change_addTemplate (e : Engine) (name source : String) :
    (e.change (.addTemplate name source)).functions = e.functions ∧
      (e.change (.addTemplate name source)).maxDepth = e.maxDepth := by
  rw [change]
  rcases e.addTemplate_cases name source with ⟨err, hadd⟩ | ⟨t, hadd, -⟩ <;> rw [hadd] <;>
    exact ⟨rfl, rfl⟩

/-- The template "b" goes on to include the first "a" when there is another one and no loader. -/
theorem stacked_unchanged : stacked.Reached ∧
    (stacked.changed [.addTemplate "a" "2", .disableLoader]).render (some "b")
      ⟨loopPage, [("a", digitPage "1")]⟩ .null = .ok "1" := by
  obtain ⟨hfunctions, hdepth⟩ := stacked.change_addTemplate "a" "2"
  have hspares : ∀ c ∈ [Change.addTemplate "a" "2", .disableLoader], c.Spares "b" := by
    intro c hc
    rcases List.mem_pair.mp hc with rfl | rfl
    · exact fun h => absurd h (by decide)
    · trivial
  have hfind : stacked.templates.find? "b" = some ⟨loopPage, [("a", digitPage "1")]⟩ := by rfl
  have hunchanged := registered_unchanged stacked_reached hfind hspares hfunctions hdepth
  exact ⟨stacked_reached,
    (hunchanged.2.1 .null).trans (render_of_eval stacked_reached (.registered hfind) rfl)⟩

end Engine

end Stencil

import Mathlib.Data.List.Forall2
import Stencil.Proofs.Including.Gathers
import Stencil.Proofs.Simulation.Engine
/-!
# Sources that only include

A source can be nothing but includes. To render such a template is to render the pages of its keys one
after the other, each in an empty layer.
-/

namespace Stencil

open Machine

def Tag.Includes (target : String) (t : Tag) : Prop := ∃ place span, t = .inclusion target place span

/-- The source is nothing but includes of these names, in their order. -/
structure Engine.Lists (e : Engine) (source : String) (names : List String) : Prop where
  fault : (e.outline source).fault = none
  tags : names.Forall₂ Tag.Includes (e.outline source).tags

theorem Engine.Lists.single {e : Engine} {source name : String} (h : e.Lists source [name]) :
    ∃ place span, (e.outline source).tags = [.inclusion name place span] := by
  obtain ⟨t, ts, ⟨place, span, rfl⟩, hts, heq⟩ := List.forall₂_cons_left_iff.mp h.tags
  rw [List.forall₂_nil_left_iff.mp hts] at heq
  exact ⟨place, span, heq⟩

/-! ## The pages of an include -/

namespace Template

def included (t : Template) (key : String) : Dict Page :=
  (Dict.mergeNew [] t.includes).insert key t.page

variable {t : Template} {key k : String}

theorem find?_included_self : (t.included key).find? key = some t.page := Dict.find?_insert_self

theorem find?_included_ne (h : k ≠ key) : (t.included key).find? k = t.includes.find? k := by
  rw [included, Dict.find?_insert_ne h, Dict.find?_mergeNew]
  rfl

end Template

namespace Engine

variable {e : Engine} {source name : String} {t : Template}

theorem offers_of_result (h : (e.compile source).result = .ok t) : e.Offers none t := by
  cases hc : e.compile source with
  | mk result asked =>
    rw [hc] at h
    subst h
    exact offers_of_compile hc

theorem compile_include (hpath : Path.normal "" name = name) (ht : e.templates.find? name = some t)
    (hsource : e.Lists source [name]) : ∃ place span,
    (e.compile source).result =
      .ok ⟨.of e.folding source [.inclusion name place span], t.included name⟩ := by
  obtain ⟨place, span, htags⟩ := hsource.single
  obtain ⟨n, hfuel⟩ := e.fuel_eq
  have hregistered : e.registered? name name = some (name, t) := by
    rw [registered?, ht]
    rfl
  have hunknown : ¬ (Gathering.start none).Knows name := by
    rintro (h | h) <;> cases h
  refine ⟨place, span, (compile_iff hfuel).mpr
    ⟨hsource.fault, _, (Gathering.start none).addTemplate name t, rfl, ?_⟩⟩
  rw [htags]
  exact .registered hpath hunknown hregistered .nil

end Engine

/-! ## Bodies -/

namespace Body

theorem foldr_inclusions {keys : List String} {ts : List Tag} (h : keys.Forall₂ Tag.Includes ts) :
    ∃ b, ts.foldr addTag [⟨.done, .ending⟩] = [⟨b, .ending⟩] := by
  induction h with
  | nil => exact ⟨.done, rfl⟩
  | cons ht _ ih =>
    obtain ⟨place, span, rfl⟩ := ht
    obtain ⟨b, hb⟩ := ih
    rw [List.foldr_cons, hb]
    exact ⟨_, rfl⟩

theorem ofTags_inclusion {keys : List String} {ts : List Tag} (h : keys.Forall₂ Tag.Includes ts)
    (key : String) (place span : Span) :
    ofTags (.inclusion key place span :: ts) = .inclusion key span (ofTags ts) := by
  obtain ⟨b, hb⟩ := foldr_inclusions h
  rw [ofTags, ofTags, List.foldr_cons, hb]
  rfl

end Body

/-! ## One include -/

namespace Renderer

theorem eval_inclusion {r : Renderer} {depth : Nat} {folding : Bool} {source key : String}
    {place span : Span} {q : Page} (hq : r.page? key = some q) (data : Value) (out : Output) :
    r.eval (depth + 1) (.of folding source [.inclusion key place span]) ⟨[], data⟩ out =
      (r.eval depth q ⟨[.empty], data⟩ out).orIn key := by
  have hbody : (Page.of folding source [.inclusion key place span]).body =
    .inclusion key span .done := rfl
  rw [eval, hbody, Body.evalAll, Body.eval]
  simp only [hq]
  generalize hq' : (r.eval depth q _ out).orIn key = o
  have hscope : (r.context (.of folding source [.inclusion key place span]) ⟨[], data⟩).scope .empty =
      ⟨[.empty], data⟩ := rfl
  rw [hscope] at hq'
  rw [hq']
  cases o <;> rfl

theorem eval_inclusion_zero {r : Renderer} {folding : Bool} {source key : String} {place span : Span} (data : Value)
    (out : Output) : r.eval 0 (.of folding source [.inclusion key place span]) ⟨[], data⟩ out =
      .failed (.raised (.located (.includeDepth r.limit) source span)) out := rfl

end Renderer

/-! ## Many includes -/

theorem Body.eval_includes {c : Context} {insert : Insertion} {keys texts : List String}
    {us : List Tag} (hus : keys.Forall₂ Tag.Includes us)
    (hinsert : keys.Forall₂ (fun key text => ∀ span before,
      insert key span .empty (.memory before) = .done (.memory (before ++ text))) texts)
    (before : String) :
    (ofTags us).eval c insert ⟨.empty, .memory before⟩ =
      .done ⟨.empty, .memory (before ++ String.join texts)⟩ := by
  induction hus generalizing texts before with
  | nil =>
    cases hinsert
    rw [String.join_nil, String.append_empty]
    rfl
  | @cons key u keys us hu hus ih =>
    obtain ⟨place, span, rfl⟩ := hu
    cases hinsert with
    | @cons _ text _ texts hkey hkeys =>
      rw [ofTags_inclusion hus, eval]
      dsimp only
      rw [hkey, Outcome.bind_done, String.join_cons, ← String.append_assoc]
      exact ih hkeys (before ++ text)

theorem Renderer.eval_includes {r : Renderer} {depth : Nat} {data : Value} {folding : Bool}
    {source : String} {keys texts : List String} {us : List Tag} (hus : keys.Forall₂ Tag.Includes us)
    (hkeys : keys.Forall₂ (fun key text => ∃ q, r.page? key = some q ∧ ∀ before,
      r.eval depth q ⟨[.empty], data⟩ (.memory before) = .done (.memory (before ++ text))) texts) :
    r.eval (depth + 1) (.of folding source us) ⟨[], data⟩ (.memory "") =
      .done (.memory (String.join texts)) := by
  have hbody : (Page.of folding source us).body = .ofTags us := rfl
  rw [eval, hbody, Body.evalAll, Body.eval_includes hus, String.empty_append]
  · rfl
  · refine hkeys.imp ?_
    rintro key text ⟨q, hq, htext⟩ span before
    have hscope : (r.context (.of folding source us) ⟨[], data⟩).scope .empty = ⟨[.empty], data⟩ := rfl
    simp only [hq]
    rw [hscope, htext]
    rfl

theorem Engine.render_of_eval {e : Engine} {name : Option String} {t : Template} {data : Value}
    {text : String} (he : e.Reached) (ht : e.Offers name t)
    (h : (e.renderer name t).eval e.maxDepth t.page ⟨[], data⟩ (.memory "") = .done (.memory text)) :
    e.render name t data = .ok text := by
  have hinto : e.renderInto name t data (.memory "") = .done (.memory text) := by
    rw [renderInto_meaning he.sound (he.sound_of_offers ht) data (.memory ""), Renderer.meaning]
    have hlimit : (e.renderer name t).limit = e.maxDepth := rfl
    rw [hlimit, h]
    cases name <;> rfl
  rw [render, hinto]
  rfl

end Stencil

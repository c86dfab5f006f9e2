import Stencil.Proofs.Calling.Refusing
import Stencil.Proofs.Including.Closure
/-!
# The calls of a page

A page has the nodes of all calls of its source, if the callbacks are those that it was compiled with,
and each of them has code of its own in the program. While no callback is added, all pages of the
templates that an engine compiles are like that.
-/

namespace Stencil

namespace Engine

open Gathering

variable {e : Engine} {compile : Compile} {name : Option String} {t : Template} {p : Page} {n : Nat}
  {source base : String} {ts us : List Tag} {s s' : Gathering} {c : CallSite}

theorem exprs_of_resolveAll (h : e.resolveAll compile source base ts s = (.ok us, s')) :
    us.flatMap Tag.exprs = ts.flatMap Tag.exprs := by
  induction ts generalizing s us with
  | nil =>
    cases h
    rfl
  | cons t ts ih =>
    by_cases ht : ∃ name place span, t = .inclusion name place span
    · obtain ⟨name, place, span, rfl⟩ := ht
      obtain ⟨key, s₁, vs, -, hrest, rfl⟩ := resolveAll_inclusion_cases h
      rw [List.flatMap_cons, List.flatMap_cons, ih hrest]
      rfl
    · have hother : ∀ name place span, t ≠ .inclusion name place span :=
        fun name place span heq => ht ⟨name, place, span, heq⟩
      obtain ⟨vs, rfl, hrest⟩ := resolveAll_other hother h
      rw [List.flatMap_cons, List.flatMap_cons, ih hrest]

/-- An engine with the same marks and the same callbacks has compiled the page. -/
def Compiled (e : Engine) (p : Page) : Prop :=
  ∃ (e' : Engine) (compile : Compile) (base : String) (s s' : Gathering), e'.markup = e.markup ∧
    e'.functions = e.functions ∧ e'.compileWith compile p.source base s = (.ok p, s')

theorem Compiled.outline (h : e.Compiled p) : (e.outline p.source).fault = none ∧
    p.tags.flatMap Tag.exprs = (e.outline p.source).tags.flatMap Tag.exprs := by
  obtain ⟨e', compile, base, s, s', hmarkup, hfunctions, hcompile⟩ := h
  have houtline : e'.outline p.source = e.outline p.source := by
    unfold Engine.outline grammar
    rw [hmarkup, hfunctions]
  obtain ⟨hfault, us, hp, hus⟩ := compileWith_iff.mp hcompile
  rw [houtline] at hfault hus
  have htags : p.tags = us := congrArg Page.tags hp
  rw [htags]
  exact ⟨hfault, exprs_of_resolveAll hus⟩

theorem exprs_of_compiled (h : e.Compiled p) (hp : p.Sound) :
    p.body.exprs = (e.outline p.source).tags.flatMap Tag.exprs :=
  (Body.exprs_of_derives (derives_ofTags hp.closed)).trans h.outline.2

theorem node_of_call (h : e.Compiled p) (hp : p.Sound) (hc : c ∈ e.calls p.source) :
    ∃ x, (e.grammar p.source).node c = .ok x ∧ x.Among p.body.exprs := by
  rw [exprs_of_compiled h hp]
  exact (e.outline_outlines p.source).calls h.outline.1 c hc

theorem call_of_node (h : e.Compiled p) (hp : p.Sound) {x : Expr} (hx : x.isCall)
    (hmem : x.Among p.body.exprs) : ∃ c ∈ e.calls p.source, (e.grammar p.source).node c = .ok x := by
  rw [exprs_of_compiled h hp] at hmem
  exact (e.outline_outlines p.source).only x hx hmem

theorem stands_of_among (hp : p.Sound) {x : Expr} (hx : x.operand? = none)
    (hmem : x.Among p.body.exprs) : x.Stands p.code p.folding ∧ x.Placed p.source.toList := by
  obtain ⟨root, hroot, hwithin⟩ := hmem
  have hplaced := Body.placed_of_mem hroot (Body.ofTags_placed hp.placed)
  refine ⟨hwithin.stands hx ?_, hwithin.placed hplaced⟩
  rw [hp.code_eq]
  exact Body.stands_of_mem hroot (Expr.folded?_eq_none (hwithin.operand? hx)) (Code.At.whole _)

/-! ## Templates that are compiled with the callbacks of now -/

/-- All pages of the template were compiled with the callbacks that the engine has. -/
structure Fresh (e : Engine) (t : Template) : Prop where
  root : e.Compiled t.page
  includes : ∀ entry ∈ t.includes, e.Compiled entry.2

/-- No callback has been added since the registered templates were compiled. -/
def UpToDate (e : Engine) : Prop := ∀ name t, e.templates.find? name = some t → e.Fresh t

theorem Fresh.compiled (h : e.Fresh t) (hp : t.Has p) : e.Compiled p := by
  rcases hp with rfl | ⟨key, hp⟩
  · exact h.root
  · exact h.includes _ (Dict.mem_of_find? hp)

theorem compiled_insert {d : Dict Page} {key : String} (h : ∀ entry ∈ d, e.Compiled entry.2)
    (hp : e.Compiled p) : ∀ entry ∈ d.insert key p, e.Compiled entry.2 := by
  intro entry hentry
  rcases Dict.mem_insert hentry with rfl | hentry
  · exact hp
  · exact h entry hentry

theorem Gathers.page_compiled (h : e.Gathers n base (e.outline source).tags s us s')
    (hfault : (e.outline source).fault = none) : e.Compiled (.of e.folding source us) :=
  ⟨e, e.page n, base, s, s', rfl, rfl, compileWith_iff.mpr ⟨hfault, us, rfl, h.resolveAll source⟩⟩

theorem Gathers.includes_compiled (he : e.UpToDate) (h : e.Gathers n base ts s us s')
    (hs : ∀ entry ∈ s.includes, e.Compiled entry.2) : ∀ entry ∈ s'.includes, e.Compiled entry.2 := by
  induction h with
  | nil => exact hs
  | other _ _ ih => exact ih hs
  | known _ _ _ ih => exact ih hs
  | registered _ _ hr _ ih =>
    have hfresh := he _ _ (find?_of_registered? hr)
    apply ih
    apply compiled_insert _ hfresh.root
    intro entry hentry
    exact (Dict.mem_mergeNew hentry).elim (hs entry) (hfresh.includes entry)
  | loaded _ _ _ _ _ hfault hpage _ ihPage ih =>
    apply ih
    exact compiled_insert (ihPage hs) (hpage.page_compiled hfault)

theorem UpToDate.fresh_of_compiles (he : e.UpToDate) (h : e.Compiles name source base t) : e.Fresh t := by
  obtain ⟨n, s, hpage, hincludes⟩ := h
  obtain ⟨m, us, rfl, hfault, hp, hus⟩ := e.page_gathers n _ _ _ _ _ hpage
  constructor
  · rw [hp]
    exact hus.page_compiled hfault
  · rw [← hincludes]
    exact hus.includes_compiled he nofun

/-- Whatever such an engine can render was compiled with the callbacks that it has, with all includes. -/
theorem UpToDate.fresh (he : e.UpToDate) (ht : e.Offers name t) : e.Fresh t := by
  cases ht with
  | source h => exact he.fresh_of_compiles h
  | file _ _ h => exact he.fresh_of_compiles h
  | registered h => exact he _ _ h

theorem upToDate_of_no_templates (h : e.templates = []) : e.UpToDate := by
  intro name t ht
  rw [h] at ht
  cases ht

theorem UpToDate.addTemplate (he : e.UpToDate) {name : String} (h : e.Compiles (some name) source base t) :
    UpToDate { e with templates := e.templates.insert name t } := by
  intro name' t' ht'
  by_cases hname : name' = name
  · subst hname
    rw [Dict.find?_insert_self] at ht'
    cases ht'
    obtain ⟨hroot, hincludes⟩ := he.fresh_of_compiles h
    exact ⟨hroot, hincludes⟩
  · rw [Dict.find?_insert_ne hname] at ht'
    obtain ⟨hroot, hincludes⟩ := he name' t' ht'
    exact ⟨hroot, hincludes⟩

end Engine

end Stencil

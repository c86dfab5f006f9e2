import Stencil.Proofs.Including.Closure
import Stencil.Proofs.Including.Gathers
/-!
# Includes beside others

When an include is resolved, pages may be held already that other includes have brought. If these are
compatible with it, the include gets the same key as if it stood alone, and brings the same pages as far
as they are new.
-/

namespace Stencil

namespace Engine

/-! ## What an include comes to -/

/-- Resolving the include of a name comes to resolve another one, in some source that the loader gives
for want of a registered template. -/
inductive Touches (e : Engine) (base name : String) : String → String → Prop
  | self : Touches e base name base name
  | loaded {base' name' path source name'' : String} {loader : Loader} {place span : Span} :
    Touches e base name base' name' → Path.normal base' name' = path →
    e.registered? name' path = none → e.loader = some loader → loader.answer path = .ok source →
    .inclusion name'' place span ∈ (e.outline source).tags →
      Touches e base name (Path.directory path) name''

/-- That some held pages do not get in the way of an include which gathers others when it stands alone.
No key has two pages. A registered template is not hidden by a page that is held under the path of the
include. If it is held itself, everything that it includes is held as well. -/
structure Compatible (e : Engine) (held : Dict Page) (name : String) (alone : Dict Page) : Prop where
  agree : ∀ key p q, held.find? key = some p → alone.find? key = some q → p = q
  spelled : ∀ base name' key t, e.Touches "" name base name' →
    e.registered? name' (Path.normal base name') = some (key, t) →
      held.has (Path.normal base name') → key = Path.normal base name'
  whole : ∀ base name' key t, e.Touches "" name base name' →
    e.registered? name' (Path.normal base name') = some (key, t) →
      held.has key → ∀ k, t.includes.has k → held.has k

variable {e : Engine} {n : Nat} {base name path key : String} {ts us : List Tag}
  {s s' t : Gathering} {p : Page} {k : String}

/-! ## Pages that stay -/

theorem templates_of_registered?_none (h : e.registered? name path = none) :
    e.templates.find? path = none := by
  rw [registered?, Option.or_eq_none_iff, Option.map_eq_none_iff, Option.map_eq_none_iff] at h
  exact h.2

/-- A page that nothing will replace: that of the registered template, or a loaded one that is
complete. -/
structure Settled (e : Engine) (s : Gathering) (k : String) (p : Page) : Prop where
  found : s.includes.find? k = some p
  registered : ∀ t, e.templates.find? k = some t → t.page = p
  complete : e.templates.find? k = none → k ∉ s.inProgress

theorem settled_addTemplate {t : Template} (ht : e.registered? name path = some (key, t)) :
    e.Settled (s.addTemplate key t) key t.page := by
  have hfind := find?_of_registered? ht
  refine ⟨Dict.find?_insert_self, fun t' ht' => ?_, fun hnone => ?_⟩
  · rw [hfind] at ht'
    cases ht'
    rfl
  · rw [hfind] at hnone
    cases hnone

theorem settled_leave (hk : ¬ s.Knows path) (hr : e.registered? name path = none) :
    e.Settled (t.leave s path p) path p := by
  have hfind := templates_of_registered?_none hr
  refine ⟨Dict.find?_insert_self, fun t' ht' => ?_, fun _ hmem => hk (.inr hmem)⟩
  rw [hfind] at ht'
  cases ht'

theorem Settled.addTemplate {t : Template} (h : e.Settled s k p)
    (ht : e.registered? name path = some (key, t)) : e.Settled (s.addTemplate key t) k p := by
  refine ⟨?_, h.registered, h.complete⟩
  by_cases hkey : k = key
  · subst hkey
    rw [← h.registered t (find?_of_registered? ht)]
    exact Dict.find?_insert_self
  · refine (Dict.find?_insert_ne hkey).trans ?_
    rw [Dict.find?_mergeNew, h.found, Option.some_or]

theorem Settled.enter (h : e.Settled s k p) (hk : ¬ s.Knows path) : e.Settled (s.enter path) k p := by
  refine ⟨h.found, h.registered, fun hnone hmem => ?_⟩
  rcases List.mem_cons.mp hmem with rfl | hmem
  · exact hk (.inl (Dict.has_of_find? h.found))
  · exact h.complete hnone hmem

theorem Settled.leave (h : e.Settled t k p) (hr : e.registered? name path = none)
    (ht : t.inProgress = path :: s.inProgress) (q : Page) : e.Settled (t.leave s path q) k p := by
  have hfind := templates_of_registered?_none hr
  have hne : k ≠ path := by
    rintro rfl
    exact h.complete hfind (ht ▸ List.mem_cons_self)
  refine ⟨(Dict.find?_insert_ne hne).trans h.found, h.registered, fun hnone hmem => ?_⟩
  exact h.complete hnone (ht ▸ List.mem_cons_of_mem path hmem)

theorem Gathers.settled (h : e.Gathers n base ts s us s') (hs : e.Settled s k p) :
    e.Settled s' k p := by
  induction h with
  | nil => exact hs
  | other _ _ ih => exact ih hs
  | known _ _ _ ih => exact ih hs
  | registered _ _ hr _ ih => exact ih (hs.addTemplate hr)
  | loaded _ hk hr _ _ _ hpage _ ihPage ih =>
    exact ih ((ihPage (hs.enter hk)).leave hr hpage.inProgress _)

/-! ## What is held already -/

def Closed (held : Dict Page) : Prop :=
  ∀ k p, held.find? k = some p → ∀ key, p.Includes key → held.has key

def AllTouched (e : Engine) (name base : String) (ts : List Tag) : Prop :=
  ∀ name' place span, .inclusion name' place span ∈ ts → e.Touches "" name base name'

def SettledIn (e : Engine) (s : Gathering) (alone : Dict Page) : Prop :=
  ∀ k p, e.Settled s k p → alone.find? k = some p

variable {held alone : Dict Page} {name₀ : String} {place span : Span} {source : String}

theorem AllTouched.head (h : e.AllTouched name₀ base (.inclusion name place span :: ts)) :
    e.Touches "" name₀ base name := h name place span List.mem_cons_self

theorem AllTouched.tail {tag : Tag} (h : e.AllTouched name₀ base (tag :: ts)) :
    e.AllTouched name₀ base ts :=
  fun name' place span hmem => h name' place span (List.mem_cons_of_mem _ hmem)

theorem AllTouched.loaded {loader : Loader}
    (h : e.AllTouched name₀ base (.inclusion name place span :: ts))
    (hpath : Path.normal base name = path) (hr : e.registered? name path = none)
    (hl : e.loader = some loader) (hs : loader.answer path = .ok source) :
    e.AllTouched name₀ (Path.directory path) (e.outline source).tags :=
  fun _ _ _ hmem => h.head.loaded hpath hr hl hs hmem

theorem SettledIn.before (h : e.SettledIn s' alone) (hg : e.Gathers n base ts s us s') :
    e.SettledIn s alone := fun k p hs => h k p (hg.settled hs)

theorem SettledIn.inner (h : e.SettledIn (t.leave s path p) alone)
    (hr : e.registered? name path = none) (ht : t.inProgress = path :: s.inProgress) :
    e.SettledIn t alone := fun k q hq => h k q (hq.leave hr ht p)

theorem SettledIn.held_registered {u : Template} (h : e.SettledIn (s.addTemplate key u) alone)
    (hc : e.Compatible held name₀ alone) (hr : e.registered? name path = some (key, u))
    (hkey : held.has key) : held.find? key = some u.page := by
  obtain ⟨p, hp⟩ := Dict.has_iff.mp hkey
  rw [hp, hc.agree key p u.page hp (h key u.page (settled_addTemplate hr))]

theorem SettledIn.held_loaded (h : e.SettledIn (t.leave s path p) alone)
    (hc : e.Compatible held name₀ alone) (hclosed : Closed held) (hk : ¬ s.Knows path)
    (hr : e.registered? name path = none) (hpath : held.has path) :
    ∀ key, p.Includes key → held.has key := by
  obtain ⟨q, hq⟩ := Dict.has_iff.mp hpath
  have hpage : q = p := hc.agree path q p hq (h path p (settled_leave hk hr))
  exact hclosed path p (hpage ▸ hq)

theorem find?_addTemplate_ne {u : Template} (hk : k ≠ key) :
    (s.addTemplate key u).includes.find? k = (s.includes.find? k).or (u.includes.find? k) :=
  (Dict.find?_insert_ne hk).trans Dict.find?_mergeNew

theorem Gathers.within (h : e.Gathers n base ts s us s') (hclosed : Closed held)
    (hc : e.Compatible held name₀ alone) (htouched : e.AllTouched name₀ base ts)
    (hsettled : e.SettledIn s' alone)
    (hus : ∀ key place span, .inclusion key place span ∈ us → held.has key) (hk : ¬ held.has k) :
    s'.includes.find? k = s.includes.find? k := by
  induction h with
  | nil => rfl
  | other _ _ ih =>
    exact ih htouched.tail hsettled fun key place span hmem =>
      hus key place span (List.mem_cons_of_mem _ hmem)
  | known _ _ _ ih =>
    exact ih htouched.tail hsettled fun key place span hmem =>
      hus key place span (List.mem_cons_of_mem _ hmem)
  | @registered n base name path key place span ts us s s' u hpath _ hr _ ih =>
    have hkey : held.has key := hus key place span List.mem_cons_self
    have hne : k ≠ key := fun heq => hk (heq ▸ hkey)
    subst hpath
    have hnone : u.includes.find? k = none :=
      Dict.find?_of_not_has fun h => hk (hc.whole _ _ key u htouched.head hr hkey k h)
    refine (ih htouched.tail hsettled fun key place span hmem =>
      hus key place span (List.mem_cons_of_mem _ hmem)).trans ?_
    rw [find?_addTemplate_ne hne, hnone, Option.or_none]
  | @loaded n base name path source place span ts us vs s s₁ s' loader hpath hkn hr hl hs hfault
      hpage hrest ihPage ih =>
    have hheld : held.has path := hus path place span List.mem_cons_self
    have hne : k ≠ path := fun heq => hk (heq ▸ hheld)
    have hleave := hsettled.before hrest
    have hkeys := hleave.held_loaded hc hclosed hkn hr hheld
    refine (ih htouched.tail hsettled fun key place span hmem =>
      hus key place span (List.mem_cons_of_mem _ hmem)).trans ?_
    refine (Dict.find?_insert_ne hne).trans ?_
    exact ihPage (htouched.loaded hpath hr hl hs) (hleave.inner hr hpage.inProgress)
      fun key place span hmem => hkeys key ⟨place, span, hmem⟩

/-! ## Side by side -/

/-- One state holds some pages besides those of another one. -/
structure Beside (held : Dict Page) (s c : Gathering) : Prop where
  inProgress : c.inProgress = s.inProgress
  kept : ∀ k, held.has k → c.includes.find? k = held.find? k
  other : ∀ k, ¬ held.has k → c.includes.find? k = s.includes.find? k

variable {c : Gathering}

theorem Beside.knows (h : Beside held s c) (hk : s.Knows path) : c.Knows path := by
  rcases hk with hk | hk
  · refine .inl ?_
    by_cases hheld : held.has path
    · rwa [Dict.has, h.kept path hheld]
    · rwa [Dict.has, h.other path hheld]
  · exact .inr (h.inProgress ▸ hk)

theorem Beside.has_of_knows (h : Beside held s c) (hk : ¬ s.Knows path) (hc : c.Knows path) :
    held.has path := by
  by_contra hheld
  rcases hc with hc | hc
  · rw [Dict.has, h.other path hheld] at hc
    exact hk (.inl hc)
  · exact hk (.inr (h.inProgress ▸ hc))

theorem Beside.addTemplate {u : Template} (h : Beside held s c)
    (hpage : held.has key → held.find? key = some u.page) :
    Beside held (s.addTemplate key u) (c.addTemplate key u) := by
  refine ⟨h.inProgress, fun k hk => ?_, fun k hk => ?_⟩
  · by_cases hkey : k = key
    · subst hkey
      rw [hpage hk]
      exact Dict.find?_insert_self
    · obtain ⟨p, hp⟩ := Dict.has_iff.mp hk
      rw [find?_addTemplate_ne hkey, h.kept k hk, hp, Option.some_or]
  · by_cases hkey : k = key
    · subst hkey
      exact Dict.find?_insert_self.trans Dict.find?_insert_self.symm
    · rw [find?_addTemplate_ne hkey, find?_addTemplate_ne hkey, h.other k hk]

theorem Beside.enter (h : Beside held s c) (path : String) :
    Beside held (s.enter path) (c.enter path) :=
  ⟨congrArg (path :: ·) h.inProgress, h.kept, h.other⟩

theorem Beside.leave {c₁ : Gathering} (h : Beside held s c) (h₁ : Beside held t c₁)
    (hpath : ¬ held.has path) (p : Page) : Beside held (t.leave s path p) (c₁.leave c path p) := by
  refine ⟨h.inProgress, fun k hk => ?_, fun k hk => ?_⟩
  · have hne : k ≠ path := fun heq => hpath (heq ▸ hk)
    exact (Dict.find?_insert_ne hne).trans (h₁.kept k hk)
  · by_cases hkey : k = path
    · subst hkey
      exact Dict.find?_insert_self.trans Dict.find?_insert_self.symm
    · exact (Dict.find?_insert_ne hkey).trans
        ((h₁.other k hk).trans (Dict.find?_insert_ne hkey).symm)

/-- The same includes can be gathered where compatible pages are held. They get the same keys, and no
held page is replaced. -/
theorem Gathers.beside (h : e.Gathers n base ts s us s') (hclosed : Closed held)
    (hc : e.Compatible held name₀ alone) (htouched : e.AllTouched name₀ base ts)
    (hsettled : e.SettledIn s' alone) (hb : Beside held s c) :
    ∃ c', e.Gathers n base ts c us c' ∧ Beside held s' c' := by
  induction h generalizing c with
  | nil => exact ⟨c, .nil, hb⟩
  | other ht _ ih =>
    obtain ⟨c', hc', hb'⟩ := ih htouched.tail hsettled hb
    exact ⟨c', .other ht hc', hb'⟩
  | known hpath hk _ ih =>
    obtain ⟨c', hc', hb'⟩ := ih htouched.tail hsettled hb
    exact ⟨c', .known hpath (hb.knows hk) hc', hb'⟩
  | @registered n base name path key place span ts us s s' u hpath hk hr hrest ih =>
    by_cases hknown : c.Knows path
    · -- The page is held under its path, with everything that the template includes.
      have hheld := hb.has_of_knows hk hknown
      subst hpath
      obtain rfl := hc.spelled _ _ key u htouched.head hr hheld
      have hb₁ : Beside held (s.addTemplate (Path.normal base name) u) c := by
        refine ⟨hb.inProgress, hb.kept, fun k hk => ?_⟩
        have hnone : u.includes.find? k = none :=
          Dict.find?_of_not_has fun h => hk (hc.whole _ _ _ u htouched.head hr hheld k h)
        have hne : k ≠ Path.normal base name := fun heq => hk (heq ▸ hheld)
        rw [find?_addTemplate_ne hne, hnone, Option.or_none, hb.other k hk]
      obtain ⟨c', hc', hb'⟩ := ih htouched.tail hsettled hb₁
      exact ⟨c', .known rfl hknown hc', hb'⟩
    · have hpage := (hsettled.before hrest).held_registered hc hr
      obtain ⟨c', hc', hb'⟩ := ih htouched.tail hsettled (hb.addTemplate hpage)
      exact ⟨c', .registered hpath hknown hr hc', hb'⟩
  | @loaded n base name path source place span ts us vs s s₁ s' loader hpath hk hr hl hs hfault
      hpage hrest ihPage ih =>
    have hleave := hsettled.before hrest
    have hinner := hleave.inner hr hpage.inProgress
    have hpaged := htouched.loaded hpath hr hl hs
    by_cases hknown : c.Knows path
    · -- All that the loaded page leads to is held.
      have hheld := hb.has_of_knows hk hknown
      have hkeys := hleave.held_loaded hc hclosed hk hr hheld
      have hb₁ : Beside held (s₁.leave s path (.of e.folding source vs)) c := by
        refine ⟨hb.inProgress, hb.kept, fun k hk => ?_⟩
        have hwithin := hpage.within hclosed hc hpaged hinner
          (fun key place span hmem => hkeys key ⟨place, span, hmem⟩) hk
        have hne : k ≠ path := fun heq => hk (heq ▸ hheld)
        exact (hb.other k hk).trans (hwithin.symm.trans (Dict.find?_insert_ne hne).symm)
      obtain ⟨c', hc', hb'⟩ := ih htouched.tail hsettled hb₁
      exact ⟨c', .known hpath hknown hc', hb'⟩
    · have hpath' : ¬ held.has path := fun hheld =>
        hknown (.inl (by rwa [Dict.has, hb.kept path hheld]))
      obtain ⟨c₁, hc₁, hb₁⟩ := ihPage hpaged hinner (hb.enter path)
      obtain ⟨c', hc', hb'⟩ := ih htouched.tail hsettled (hb.leave hb₁ hpath' _)
      exact ⟨c', .loaded hpath hknown hr hl hs hfault hc₁ hc', hb'⟩

end Engine

end Stencil

import Stencil.Proofs.Including.Beside
import Stencil.Proofs.Including.Source
import Stencil.Proofs.Meaning.Page
/-!
# Includes together

Includes that compile and render alone do so together as well, if those that come first do not get in
the way of the later ones. Their outputs come one after the other.
-/

namespace Stencil

/-! ## Dictionaries -/

def Dict.Within (d d' : Dict α) : Prop := ∀ k x, d.find? k = some x → d'.find? k = some x

theorem Dict.Within.trans {d d' d'' : Dict α} (h : d.Within d') (h' : d'.Within d'') :
    d.Within d'' := fun k x hx => h' k x (h k x hx)

theorem Dict.Within.has {d d' : Dict α} (h : d.Within d') {k : String} (hk : d.has k) : d'.has k := by
  obtain ⟨x, hx⟩ := Dict.has_iff.mp hk
  exact Dict.has_of_find? (h k x hx)

/-! ## Writing behind other text -/

/-- The second output holds what the first one does behind other text. -/
def Output.Written (before : String) (o o' : Output) : Prop :=
  ∃ text, o = .memory text ∧ o' = .memory (before ++ text)

theorem Output.written_kept (before : String) : Output.Kept (Written before) := by
  rintro _ _ s ⟨text, rfl, rfl⟩
  exact ⟨rfl, text ++ s, rfl, by rw [← String.append_assoc]; rfl⟩

theorem Outcome.done_of_orIn {o : Outcome α} {name : String} {a : α} (h : o.orIn name = .done a) :
    o = .done a := by
  cases o with
  | failed e out => cases h
  | _ => exact h

theorem Renderer.Agree.eval_behind {r r' : Renderer} {among : Page → Prop} (h : r.Agree r' among)
    (hlimit : r.limit = r'.limit) {p : Page} (hp : among p) {depth : Nat} {around : Scope}
    {out : Output} (hout : r.eval depth p around (.memory "") = .done out) (before : String) :
    r'.eval depth p around (.memory before) = .done (.memory (before ++ out.taken.text)) := by
  have hstart : Output.Written before (.memory "") (.memory before) :=
    ⟨"", rfl, by rw [String.append_empty]⟩
  have hdeep : r.Deeper r' (fun _ => False) depth depth := .inl ⟨rfl, hlimit⟩
  have hsame := h.eval_same (Output.written_kept before) (fun _ _ h => h) hdeep hp (.refl around)
    hstart
  rw [hout] at hsame
  generalize r'.eval depth p around (.memory before) = o at hsame ⊢
  cases hsame with
  | done hwritten =>
    obtain ⟨text, rfl, rfl⟩ := hwritten
    rfl

/-! ## What an include brings -/

structure Single where
  name : String
  template : Template
  text : String

namespace Engine

variable {e : Engine} {n : Nat} {base name key : String} {ts us : List Tag} {s s' c : Gathering}
  {data : Value} {x y : Single} {xs : List Single} {keys : List String} {place span : Span}

/-- The include compiles and renders alone, to that template and that output. -/
structure Alone (e : Engine) (data : Value) (x : Single) : Prop where
  compiles : ∃ source, e.Lists source [x.name] ∧ (e.compile source).result = .ok x.template
  renders : e.render none x.template data = .ok x.text

/-- The first include does not get in the way of the second one. -/
def Allows (e : Engine) (x y : Single) : Prop :=
  e.Compatible x.template.includes y.name y.template.includes

theorem Gathers.append {ts' us' : List Tag} {s'' : Gathering} (h : e.Gathers n base ts s us s')
    (h' : e.Gathers n base ts' s' us' s'') : e.Gathers n base (ts ++ ts') s (us ++ us') s'' := by
  induction h with
  | nil => exact h'
  | other ht _ ih => exact .other ht (ih h')
  | known hpath hk _ ih => exact .known hpath hk (ih h')
  | registered hpath hk hr _ ih => exact .registered hpath hk hr (ih h')
  | loaded hpath hk hr hl hs hfault hpage _ _ ih =>
    exact .loaded hpath hk hr hl hs hfault hpage (ih h')

theorem Gathers.moved (h : e.Gathers n base [.inclusion name place span] s us s') :
    ∃ key, us = [.inclusion key place span] ∧ ∀ place' span',
      e.Gathers n base [.inclusion name place' span'] s [.inclusion key place' span'] s' := by
  cases h with
  | other ht _ => exact absurd rfl (ht name place span)
  | known hpath hk hrest =>
    cases hrest
    exact ⟨_, rfl, fun _ _ => .known hpath hk .nil⟩
  | registered hpath hk hr hrest =>
    cases hrest
    exact ⟨_, rfl, fun _ _ => .registered hpath hk hr .nil⟩
  | loaded hpath hk hr hl hs hfault hpage hrest =>
    cases hrest
    exact ⟨_, rfl, fun _ _ => .loaded hpath hk hr hl hs hfault hpage .nil⟩

theorem Gathers.sound (h : e.Gathers n base ts s us s') (he : e.Sound) (hs : s.Sound) : s'.Sound :=
  (resolveAll_sound he (page_sound he n) hs (h.resolveAll "")).sound

def Brings (e : Engine) (n : Nat) (x : Single) (key : String) : Prop :=
  ∃ source place span s, x.template.page = .of e.folding source [.inclusion key place span] ∧
    e.Gathers n "" [.inclusion x.name place span] (.start none) [.inclusion key place span] s ∧
    s.includes = x.template.includes

theorem Alone.brings (h : e.Alone data x) (hfuel : e.fuel = n + 1) : ∃ key, e.Brings n x key := by
  obtain ⟨source, hlists, hcompile⟩ := h.compiles
  obtain ⟨place, span, htags⟩ := hlists.single
  obtain ⟨-, us, s, ht, hgathers⟩ := (compile_iff hfuel).mp hcompile
  rw [htags] at hgathers
  obtain ⟨key, rfl, -⟩ := hgathers.moved
  exact ⟨key, source, place, span, s, by rw [ht], hgathers, by rw [ht]⟩

theorem alone_bring (hx : ∀ x ∈ xs, e.Alone data x) (hfuel : e.fuel = n + 1) :
    ∃ keys, xs.Forall₂ (e.Brings n) keys := by
  induction xs with
  | nil => exact ⟨[], .nil⟩
  | cons x xs ih =>
    rw [List.forall_mem_cons] at hx
    obtain ⟨key, hkey⟩ := hx.1.brings hfuel
    obtain ⟨keys, hkeys⟩ := ih hx.2
    exact ⟨key :: keys, .cons hkey hkeys⟩

theorem Compatible.union {held held' both alone : Dict Page} (h : e.Compatible held name alone)
    (h' : e.Compatible held' name alone) (hheld : held.Within both) (hheld' : held'.Within both)
    (hboth : ∀ k p, both.find? k = some p → held.find? k = some p ∨ held'.find? k = some p) :
    e.Compatible both name alone := by
  have hhas : ∀ k, both.has k → held.has k ∨ held'.has k := fun k hk => by
    obtain ⟨p, hp⟩ := Dict.has_iff.mp hk
    exact (hboth k p hp).imp Dict.has_of_find? Dict.has_of_find?
  refine ⟨fun key p q hp hq => ?_, fun base name' key t ht hr hk => ?_,
    fun base name' key t ht hr hk k hkt => ?_⟩
  · exact (hboth key p hp).elim (h.agree key p q · hq) (h'.agree key p q · hq)
  · exact (hhas _ hk).elim (h.spelled base name' key t ht hr) (h'.spelled base name' key t ht hr)
  · rcases hhas _ hk with hk | hk
    · exact hheld.has (h.whole base name' key t ht hr hk k hkt)
    · exact hheld'.has (h'.whole base name' key t ht hr hk k hkt)

theorem Brings.beside (h : e.Brings n x key) (he : e.Sound) (hc : c.Sound)
    (hin : c.inProgress = []) (hcompatible : e.Compatible c.includes x.name x.template.includes)
    (place span : Span) : ∃ c', e.Gathers n "" [.inclusion x.name place span] c
      [.inclusion key place span] c' ∧ c'.Sound ∧ c'.inProgress = [] ∧
      c.includes.Within c'.includes ∧ x.template.includes.Within c'.includes ∧
      ∀ k p, c'.includes.find? k = some p →
        c.includes.find? k = some p ∨ x.template.includes.find? k = some p := by
  obtain ⟨_, place', span', s, -, hgathers, hincludes⟩ := h
  have hclosed : Closed c.includes := by
    intro k p hp key hkey
    refine (hc.closed _ (Dict.mem_of_find? hp) key hkey).resolve_right fun hmem => ?_
    rw [hin] at hmem
    cases hmem
  have htouched : e.AllTouched x.name "" [.inclusion x.name place' span'] := by
    intro name' place span hmem
    cases List.mem_singleton.mp hmem
    exact .self
  have hsettled : e.SettledIn s x.template.includes := fun k p hp => hincludes ▸ hp.found
  have hbeside : Beside c.includes (.start none) c :=
    ⟨hin, fun _ _ => rfl, fun k hk => Dict.find?_of_not_has hk⟩
  obtain ⟨c', hc', hb⟩ := hgathers.beside hclosed hcompatible htouched hsettled hbeside
  have hother : ∀ k, ¬ c.includes.has k →
      c'.includes.find? k = x.template.includes.find? k := fun k hk => hincludes ▸ hb.other k hk
  obtain ⟨key', heq, hmoved⟩ := hc'.moved
  cases heq
  refine ⟨c', hmoved place span, hc'.sound he hc, hc'.inProgress.trans hin, ?_, ?_, ?_⟩
  · intro k p hp
    rw [hb.kept k (Dict.has_of_find? hp), hp]
  · intro k p hp
    by_cases hk : c.includes.has k
    · obtain ⟨q, hq⟩ := Dict.has_iff.mp hk
      rw [hb.kept k hk, hq, hcompatible.agree k q p hq hp]
    · rw [hother k hk, hp]
  · intro k p hp
    by_cases hk : c.includes.has k
    · exact .inl (hb.kept k hk ▸ hp)
    · exact .inr (hother k hk ▸ hp)

theorem gathers_together (he : e.Sound) (hx : xs.Forall₂ (e.Brings n) keys)
    (hallows : xs.Pairwise e.Allows) (hts : (xs.map (·.name)).Forall₂ Tag.Includes ts)
    (hc : c.Sound) (hin : c.inProgress = [])
    (hcompatible : ∀ x ∈ xs, e.Compatible c.includes x.name x.template.includes) :
    ∃ us c', e.Gathers n "" ts c us c' ∧ keys.Forall₂ Tag.Includes us ∧
      c.includes.Within c'.includes ∧ ∀ x ∈ xs, x.template.includes.Within c'.includes := by
  induction hx generalizing ts c with
  | nil =>
    cases hts
    exact ⟨[], c, .nil, .nil, fun _ _ h => h, nofun⟩
  | @cons x key xs keys hbrings _ ih =>
    rw [List.pairwise_cons] at hallows
    rw [List.forall_mem_cons] at hcompatible
    cases hts with
    | cons ht hts =>
      obtain ⟨place, span, rfl⟩ := ht
      obtain ⟨c₁, hc₁, hsound, hin₁, hold, hnew, hall⟩ :=
        hbrings.beside he hc hin hcompatible.1 place span
      have hrest : ∀ y ∈ xs, e.Compatible c₁.includes y.name y.template.includes := fun y hy =>
        (hcompatible.2 y hy).union (hallows.1 y hy) hold hnew hall
      obtain ⟨us, c', hc', hus, hc₁', hxs⟩ := ih hallows.2 hts hsound hin₁ hrest
      refine ⟨.inclusion key place span :: us, c', hc₁.append hc', .cons ⟨place, span, rfl⟩ hus,
        hold.trans hc₁', ?_⟩
      exact List.forall_mem_cons.mpr ⟨hnew.trans hc₁', hxs⟩

/-! ## Rendering -/

theorem render_ok {name : Option String} {t : Template} {text : String}
    (h : e.render name t data = .ok text) :
    ∃ out, e.renderInto name t data (.memory "") = .done out ∧ out.taken.text = text := by
  unfold render at h
  split at h
  · next out hdone =>
    cases h
    exact ⟨out, hdone, rfl⟩
  · cases h
  · cases h

theorem renderer_within {t u : Template} (ht : t.Sound none) (h : t.includes.Within u.includes) :
    (e.renderer none t).Agree (e.renderer none u) t.Has := by
  refine ⟨rfl, rfl, rfl, fun p hp key hkey => ?_⟩
  obtain ⟨q, hq⟩ := (ht.knows hp hkey).means
  rcases hq with hq | ⟨-, hnone, -⟩
  · exact ⟨q, .inr ⟨key, hq⟩, page?_of_means (.inl hq), page?_of_means (.inl (h key q hq))⟩
  · cases hnone

theorem Alone.offers (h : e.Alone data x) : e.Offers none x.template := by
  obtain ⟨_, _, hcompile⟩ := h.compiles
  exact offers_of_result hcompile

theorem Alone.eval (h : e.Alone data x) (he : e.Reached) : ∃ out,
    (e.renderer none x.template).eval e.maxDepth x.template.page ⟨[], data⟩ (.memory "") = .done out ∧
      out.taken.text = x.text := by
  obtain ⟨out, hout, htext⟩ := render_ok h.renders
  rw [renderInto_meaning he.sound (he.sound_of_offers h.offers) data (.memory "")] at hout
  exact ⟨out, hout, htext⟩

theorem Alone.maxDepth_ne (h : e.Alone data x) (he : e.Reached) (hb : e.Brings n x key) :
    e.maxDepth ≠ 0 := by
  intro hzero
  obtain ⟨source, place, span, -, hpage, -⟩ := hb
  obtain ⟨out, hout, -⟩ := h.eval he
  rw [hzero, hpage, Renderer.eval_inclusion_zero] at hout
  cases hout

theorem Alone.writes (h : e.Alone data x) (he : e.Reached) (hb : e.Brings n x key) {depth : Nat}
    (hdepth : e.maxDepth = depth + 1) {u : Template} (hu : x.template.includes.Within u.includes) :
    ∃ q, (e.renderer none u).page? key = some q ∧ ∀ before,
      (e.renderer none u).eval depth q ⟨[.empty], data⟩ (.memory before) =
        .done (.memory (before ++ x.text)) := by
  have hsound := he.sound_of_offers h.offers
  obtain ⟨source, place, span, -, hpage, -⟩ := hb
  have hkey : x.template.page.Includes key := by
    rw [hpage]
    exact ⟨place, span, List.mem_cons_self⟩
  obtain ⟨q, hq⟩ := (hsound.root_closed key hkey).means
  have hfind : u.includes.find? key = some q := by
    rcases hq with hq | ⟨-, hnone, -⟩
    · exact hu key q hq
    · cases hnone
  obtain ⟨out, hout, htext⟩ := h.eval he
  rw [hdepth, hpage, Renderer.eval_inclusion (page?_of_means hq)] at hout
  refine ⟨q, page?_of_means (.inl hfind), fun before => ?_⟩
  rw [← htext]
  exact (renderer_within hsound hu).eval_behind rfl hq.has (Outcome.done_of_orIn hout) before

/-- Includes that compile and render alone, and of which no earlier one gets in the way of a later one,
compile and render together, to the outputs one after the other. -/
theorem render_together (he : e.Reached) (halone : ∀ x ∈ xs, e.Alone data x)
    (hallows : xs.Pairwise e.Allows) {source : String} (hsource : e.Lists source (xs.map (·.name))) :
    ∃ t, (e.compile source).result = .ok t ∧
      e.render none t data = .ok (String.join (xs.map (·.text))) := by
  obtain ⟨n, hfuel⟩ := e.fuel_eq
  obtain ⟨keys, hkeys⟩ := alone_bring halone hfuel
  have hempty : ∀ x ∈ xs, e.Compatible [] x.name x.template.includes :=
    fun x _ => ⟨nofun, nofun, nofun⟩
  obtain ⟨us, c, hgathers, hus, -, hwithin⟩ := gathers_together he.sound hkeys hallows hsource.tags
    (Gathering.start_sound none) rfl hempty
  have hcompile := (compile_iff hfuel).mpr ⟨hsource.fault, us, c, rfl, hgathers⟩
  refine ⟨_, hcompile, ?_⟩
  have heval : (e.renderer none ⟨.of e.folding source us, c.includes⟩).eval e.maxDepth
      (.of e.folding source us) ⟨[], data⟩ (.memory "") = .done (.memory (String.join (xs.map (·.text)))) := by
    cases hdepth : e.maxDepth with
    | zero =>
      cases hkeys with
      | nil =>
        cases hus
        rfl
      | cons hkey _ =>
        exact absurd hdepth ((halone _ List.mem_cons_self).maxDepth_ne he hkey)
    | succ depth =>
      refine Renderer.eval_includes hus ?_
      rw [List.forall₂_map_right_iff]
      refine List.Forall₂.flip ?_
      have hboth := (List.forall₂_and_left _ _).mpr
        ⟨fun x hx => And.intro (halone x hx) (hwithin x hx), hkeys⟩
      exact hboth.imp fun x key h => h.1.1.writes he h.2 hdepth h.1.2
  exact render_of_eval he (offers_of_result hcompile) heval

/-! ## Two includes -/

theorem alone_registered {t : Template} {text : String} {depth : Nat} (he : e.Reached)
    (hmarkup : e.markup = .standard) (hplain : Plain name.toList) (hpath : Path.normal "" name = name)
    (ht : e.templates.find? name = some t) (hdepth : e.maxDepth = depth + 1)
    (heval : ∀ page, (e.renderer none ⟨page, t.included name⟩).eval depth t.page ⟨[.empty], data⟩
      (.memory "") = .done (.memory text)) :
    ∃ u, e.Alone data ⟨name, u, text⟩ ∧ u.includes = t.included name := by
  have hlists : e.Lists (includeSource [name]) [name] :=
    lists_includes hmarkup (List.forall_mem_singleton.mpr hplain)
  obtain ⟨place, span, hcompile⟩ := compile_include hpath ht hlists
  refine ⟨_, ⟨⟨_, hlists, hcompile⟩, render_of_eval he (offers_of_result hcompile) ?_⟩, rfl⟩
  rw [hdepth, Renderer.eval_inclusion (page?_of_means (.inl Template.find?_included_self)), heval]
  rfl

theorem Touches.eq_of_no_loader {base' name' : String} (h : e.Touches base name base' name')
    (hl : e.loader = none) : base' = base ∧ name' = name := by
  cases h with
  | self => exact ⟨rfl, rfl⟩
  | loaded _ _ _ hloader _ _ =>
    rw [hl] at hloader
    cases hloader

theorem stacked_compatible :
    stacked.Compatible (Template.included ⟨loopPage, [("a", digitPage "1")]⟩ "b") "a"
      (Template.included ⟨digitPage "1", []⟩ "a") := by
  have hregistered : stacked.registered? "a" (Path.normal "" "a") =
      some ("a", ⟨digitPage "1", []⟩) := by rfl
  have hpath : Path.normal "" "a" = "a" := by rfl
  refine ⟨fun key p q hp hq => ?_, fun base name key t ht hr _ => ?_, fun base name key t ht hr _ => ?_⟩
  · by_cases hkey : key = "a"
    · subst hkey
      exact Option.some.inj (hp.symm.trans hq)
    · exact nomatch hq.symm.trans (Template.find?_included_ne hkey)
  · obtain ⟨rfl, rfl⟩ := ht.eq_of_no_loader rfl
    cases hr.symm.trans hregistered
    exact hpath.symm
  · obtain ⟨rfl, rfl⟩ := ht.eq_of_no_loader rfl
    cases hr.symm.trans hregistered
    exact nofun

theorem stacked_together : stacked.Reached ∧ ∃ x y, stacked.Alone .null x ∧
    stacked.Alone .null y ∧ stacked.Allows x y ∧
      ∃ t, (stacked.compile (includeSource ["b", "a"])).result = .ok t ∧
        stacked.render none t .null = .ok "11" := by
  have hpath : ∀ name ∈ ["a", "b"], Path.normal "" name = name := by decide
  obtain ⟨u, hu, hincludes⟩ : ∃ u, stacked.Alone .null ⟨"b", u, "1"⟩ ∧ u.includes =
      Template.included ⟨loopPage, [("a", digitPage "1")]⟩ "b" :=
    alone_registered stacked_reached rfl (by decide) (hpath "b" (by decide)) rfl rfl fun _ => rfl
  obtain ⟨v, hv, hincludes'⟩ : ∃ v, stacked.Alone .null ⟨"a", v, "1"⟩ ∧ v.includes =
      Template.included ⟨digitPage "1", []⟩ "a" :=
    alone_registered stacked_reached rfl (by decide) (hpath "a" (by decide)) rfl rfl fun _ => rfl
  have hallows : stacked.Allows ⟨"b", u, "1"⟩ ⟨"a", v, "1"⟩ := by
    rw [Allows, hincludes, hincludes']
    exact stacked_compatible
  have halone : ∀ x ∈ [Single.mk "b" u "1", ⟨"a", v, "1"⟩], stacked.Alone .null x := by
    intro x hx
    rcases List.mem_pair.mp hx with rfl | rfl
    · exact hu
    · exact hv
  have hsource : stacked.Lists (includeSource ["b", "a"]) ["b", "a"] :=
    lists_includes rfl (by decide)
  obtain ⟨t, ht, hrender⟩ := render_together stacked_reached halone (List.pairwise_pair.mpr hallows)
    hsource
  exact ⟨stacked_reached, _, _, hu, hv, hallows, t, ht, hrender⟩

def renewed : Engine where
  loader := none
  templates := [("a", ⟨digitPage "2", []⟩), ("b", ⟨loopPage, [("a", digitPage "1")]⟩)]

theorem renewed_reached : renewed.Reached := by
  have htwo : stacked.Compiles (some "a") "2" (Path.directory "a") ⟨digitPage "2", []⟩ :=
    compiles_digit rfl rfl rfl
  exact .addTemplate stacked_reached htwo

/-- Alone, the two includes render to "1" and to "2". Behind the include of "b", that of "a" comes to
the page that "b" includes. -/
theorem renewed_interferes : renewed.Reached ∧ ∃ u v, renewed.Alone .null ⟨"b", u, "1"⟩ ∧
    renewed.Alone .null ⟨"a", v, "2"⟩ ∧ renewed.Lists (includeSource ["b", "a"]) ["b", "a"] ∧
      ∃ t, (renewed.compile (includeSource ["b", "a"])).result = .ok t ∧
        renewed.render none t .null = .ok "11" := by
  have hpath : ∀ name ∈ ["a", "b"], Path.normal "" name = name := by decide
  obtain ⟨u, hu, -⟩ : ∃ u, renewed.Alone .null ⟨"b", u, "1"⟩ ∧ u.includes = _ :=
    alone_registered renewed_reached rfl (by decide) (hpath "b" (by decide)) rfl rfl fun _ => rfl
  obtain ⟨v, hv, -⟩ : ∃ v, renewed.Alone .null ⟨"a", v, "2"⟩ ∧ v.includes = _ :=
    alone_registered renewed_reached rfl (by decide) (hpath "a" (by decide)) rfl rfl fun _ => rfl
  have hlists : renewed.Lists (includeSource ["b", "a"]) ["b", "a"] :=
    lists_includes rfl (by decide)
  obtain ⟨tag, tags, ⟨place, span, rfl⟩, htags, hb⟩ := List.forall₂_cons_left_iff.mp hlists.tags
  obtain ⟨tag', tags', ⟨place', span', rfl⟩, htags', rfl⟩ := List.forall₂_cons_left_iff.mp htags
  cases htags'
  have hunknown : ¬ (Gathering.start none).Knows "b" := by
    rintro (h | h) <;> cases h
  have hgathers : renewed.Gathers 0 "" (renewed.outline (includeSource ["b", "a"])).tags
      (.start none) [.inclusion "b" place span, .inclusion "a" place' span']
      ((Gathering.start none).addTemplate "b" ⟨loopPage, [("a", digitPage "1")]⟩) := by
    rw [hb]
    refine .registered (hpath "b" (by decide)) hunknown rfl ?_
    exact .known (hpath "a" (by decide)) (.inl rfl) .nil
  have hcompile := (compile_iff rfl).mpr ⟨hlists.fault, _, _, rfl, hgathers⟩
  refine ⟨renewed_reached, u, v, hu, hv, hlists, _, hcompile, ?_⟩
  have hjoin : "11" = String.join ["1", "1"] := by decide
  have hdepth : renewed.maxDepth = 63 + 1 := rfl
  refine render_of_eval renewed_reached (offers_of_result hcompile) ?_
  rw [hjoin, hdepth]
  refine Renderer.eval_includes (.cons ⟨_, _, rfl⟩ (.cons ⟨_, _, rfl⟩ .nil)) ?_
  exact .cons ⟨loopPage, rfl, fun _ => rfl⟩ (.cons ⟨digitPage "1", rfl, fun _ => rfl⟩ .nil)

end Engine

end Stencil

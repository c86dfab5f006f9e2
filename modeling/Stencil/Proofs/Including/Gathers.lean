import Stencil.Proofs.Including.History
/-!
# How compiling gathers

`Gathers` is what resolving the includes among some tags comes to when all goes well, one case for each
way in which an include is found. Compiling a page succeeds exactly if its outline has no fault and its
includes gather.
-/

namespace Stencil

namespace Gathering

def enter (s : Gathering) (path : String) : Gathering :=
  { s.ask path with inProgress := path :: s.inProgress }

def leave (t s : Gathering) (path : String) (p : Page) : Gathering :=
  { t with inProgress := s.inProgress, includes := t.includes.insert path p }

theorem knows_iff {s : Gathering} {path : String} :
    (s.includes.has path || s.inProgress.contains path) = true ↔ s.Knows path := by
  rw [Bool.or_eq_true_iff, List.contains_iff_mem]
  rfl

end Gathering

namespace Engine

open Gathering

/-- Resolving the includes among some tags, where at most `n` more pages can be in progress. -/
inductive Gathers (e : Engine) :
    Nat → String → List Tag → Gathering → List Tag → Gathering → Prop
  | nil {n : Nat} {base : String} {s : Gathering} : Gathers e n base [] s [] s
  | other {n : Nat} {base : String} {t : Tag} {ts us : List Tag} {s s' : Gathering} :
    (∀ name place span, t ≠ .inclusion name place span) → Gathers e n base ts s us s' →
      Gathers e n base (t :: ts) s (t :: us) s'
  | known {n : Nat} {base name path : String} {place span : Span} {ts us : List Tag}
    {s s' : Gathering} : Path.normal base name = path → s.Knows path →
    Gathers e n base ts s us s' →
      Gathers e n base (.inclusion name place span :: ts) s (.inclusion path place span :: us) s'
  | registered {n : Nat} {base name path key : String} {place span : Span} {ts us : List Tag}
    {s s' : Gathering} {t : Template} : Path.normal base name = path → ¬ s.Knows path →
    e.registered? name path = some (key, t) → Gathers e n base ts (s.addTemplate key t) us s' →
      Gathers e n base (.inclusion name place span :: ts) s (.inclusion key place span :: us) s'
  | loaded {n : Nat} {base name path source : String} {place span : Span} {ts us vs : List Tag}
    {s s₁ s' : Gathering} {loader : Loader} : Path.normal base name = path → ¬ s.Knows path →
    e.registered? name path = none → e.loader = some loader → loader.answer path = .ok source →
    (e.outline source).fault = none →
    Gathers e n (Path.directory path) (e.outline source).tags (s.enter path) vs s₁ →
    Gathers e (n + 1) base ts (s₁.leave s path (.of e.folding source vs)) us s' →
      Gathers e (n + 1) base (.inclusion name place span :: ts) s
        (.inclusion path place span :: us) s'

variable {e : Engine} {compile : Compile} {n : Nat} {base name path key source : String}
  {place span : Span} {ts us : List Tag} {s s' : Gathering} {p : Page}

theorem Gathers.inProgress (h : e.Gathers n base ts s us s') : s'.inProgress = s.inProgress := by
  induction h with
  | nil => rfl
  | other _ _ ih => exact ih
  | known _ _ _ ih => exact ih
  | registered _ _ _ _ ih => exact ih
  | loaded _ _ _ _ _ _ _ _ _ ih => exact ih

/-! ## One include -/

theorem resolve_known (h : s.Knows (Path.normal base name)) :
    e.resolve compile base name s = (.ok (Path.normal base name), s) := by
  rw [resolve, if_pos (knows_iff.mpr h)]

theorem resolve_registered {t : Template} (h : ¬ s.Knows (Path.normal base name))
    (ht : e.registered? name (Path.normal base name) = some (key, t)) :
    e.resolve compile base name s = (.ok key, s.addTemplate key t) := by
  rw [resolve, if_neg (mt knows_iff.mp h), ht]

theorem resolve_loaded {loader : Loader} {s₁ : Gathering} (h : ¬ s.Knows (Path.normal base name))
    (hr : e.registered? name (Path.normal base name) = none) (hl : e.loader = some loader)
    (hs : loader.answer (Path.normal base name) = .ok source)
    (hc : compile source (Path.directory (Path.normal base name))
      (s.enter (Path.normal base name)) = (.ok p, s₁)) :
    e.resolve compile base name s =
      (.ok (Path.normal base name), s₁.leave s (Path.normal base name) p) := by
  rw [resolve, if_neg (mt knows_iff.mp h), hr]
  simp only [load, hl, hs]
  rw [enter] at hc
  rw [hc]
  rfl

theorem resolve_cases (h : e.resolve compile base name s = (.ok key, s')) :
    (s.Knows (Path.normal base name) ∧ key = Path.normal base name ∧ s' = s) ∨
    (¬ s.Knows (Path.normal base name) ∧
      ∃ t, e.registered? name (Path.normal base name) = some (key, t) ∧ s' = s.addTemplate key t) ∨
    (¬ s.Knows (Path.normal base name) ∧ e.registered? name (Path.normal base name) = none ∧
      key = Path.normal base name ∧ ∃ loader source p s₁, e.loader = some loader ∧
        loader.answer (Path.normal base name) = .ok source ∧
        compile source (Path.directory (Path.normal base name))
          (s.enter (Path.normal base name)) = (.ok p, s₁) ∧
        s' = s₁.leave s (Path.normal base name) p) := by
  by_cases hk : s.Knows (Path.normal base name)
  · rw [resolve_known hk] at h
    cases h
    exact .inl ⟨hk, rfl, rfl⟩
  · rw [resolve, if_neg (mt knows_iff.mp hk)] at h
    cases hr : e.registered? name (Path.normal base name) with
    | some found =>
      rw [hr] at h
      cases h
      exact .inr (.inl ⟨hk, _, rfl, rfl⟩)
    | none =>
      rw [hr] at h
      simp only [load] at h
      split at h
      · cases h
      · next loader hloader =>
        split at h
        · cases h
        · next source hsource =>
          cases hc : compile source (Path.directory (Path.normal base name))
              (s.enter (Path.normal base name)) with
          | mk result s₁ =>
            have hc' := hc
            rw [enter] at hc'
            rw [hc'] at h
            cases result with
            | error err => cases h
            | ok p =>
              cases h
              exact .inr (.inr ⟨hk, rfl, rfl, loader, source, p, s₁, hloader, hsource, hc, rfl⟩)

/-! ## All of them -/

theorem resolveAll_inclusion (h : e.resolve compile base name s = (.ok key, s'))
    {s'' : Gathering} (hts : e.resolveAll compile source base ts s' = (.ok us, s'')) :
    e.resolveAll compile source base (.inclusion name place span :: ts) s =
      (.ok (.inclusion key place span :: us), s'') := by
  simp only [resolveAll, h, hts]

theorem resolveAll_inclusion_cases {s'' : Gathering} {vs : List Tag}
    (h : e.resolveAll compile source base (.inclusion name place span :: ts) s = (.ok vs, s'')) :
    ∃ key s' us, e.resolve compile base name s = (.ok key, s') ∧
      e.resolveAll compile source base ts s' = (.ok us, s'') ∧
      vs = .inclusion key place span :: us := by
  rw [resolveAll] at h
  cases hr : e.resolve compile base name s with
  | mk result s' =>
    rw [hr] at h
    cases result with
    | error err => cases h
    | ok key =>
      dsimp only at h
      cases hts : e.resolveAll compile source base ts s' with
      | mk result s₂ =>
        rw [hts] at h
        cases result with
        | error err => cases h
        | ok us =>
          cases h
          exact ⟨key, s', us, rfl, hts, rfl⟩

/-! ## Compiling -/

theorem compileWith_iff : e.compileWith compile source base s = (.ok p, s') ↔
    (e.outline source).fault = none ∧ ∃ us, p = .of e.folding source us ∧
      e.resolveAll compile source base (e.outline source).tags s = (.ok us, s') := by
  rw [compileWith]
  cases hr : e.resolveAll compile source base (e.outline source).tags s with
  | mk result s₁ =>
    cases result with
    | error err => simp
    | ok us =>
      cases hfault : (e.outline source).fault with
      | some r => simp
      | none => simp [eq_comm]

theorem Gathers.resolveAll (h : e.Gathers n base ts s us s') (source : String) :
    e.resolveAll (e.page n) source base ts s = (.ok us, s') := by
  induction h generalizing source with
  | nil => rfl
  | @other n base t ts us s s' ht _ ih =>
    cases t with
    | inclusion name place span => exact absurd rfl (ht name place span)
    | _ => simp only [Engine.resolveAll, ih source]
  | known hpath hk _ ih =>
    subst hpath
    exact resolveAll_inclusion (resolve_known hk) (ih source)
  | registered hpath hk hr _ ih =>
    subst hpath
    exact resolveAll_inclusion (resolve_registered hk hr) (ih source)
  | loaded hpath hk hr hl hs hfault _ _ ihPage ih =>
    subst hpath
    have hpage := compileWith_iff.mpr ⟨hfault, _, rfl, ihPage _⟩
    exact resolveAll_inclusion (resolve_loaded hk hr hl hs hpage) (ih source)

def PageGathers (e : Engine) (n : Nat) : Prop :=
  ∀ source base s p s', e.page n source base s = (.ok p, s') →
    ∃ m us, n = m + 1 ∧ (e.outline source).fault = none ∧ p = .of e.folding source us ∧
      e.Gathers m base (e.outline source).tags s us s'

theorem gathers_inclusion (hpage : e.PageGathers n) {s₁ : Gathering}
    (h : e.resolve (e.page n) base name s = (.ok key, s₁)) (hts : e.Gathers n base ts s₁ us s') :
    e.Gathers n base (.inclusion name place span :: ts) s (.inclusion key place span :: us) s' := by
  rcases resolve_cases h with ⟨hk, rfl, rfl⟩ | ⟨hk, t, hr, rfl⟩ |
    ⟨hk, hr, rfl, loader, source, p, s₂, hl, hs, hc, rfl⟩
  · exact .known rfl hk hts
  · exact .registered rfl hk hr hts
  · obtain ⟨m, vs, rfl, hfault, rfl, hvs⟩ := hpage _ _ _ _ _ hc
    exact .loaded rfl hk hr hl hs hfault hvs hts

theorem gathers_of_resolveAll (hpage : e.PageGathers n)
    (h : e.resolveAll (e.page n) source base ts s = (.ok us, s')) :
    e.Gathers n base ts s us s' := by
  induction ts generalizing s us with
  | nil =>
    cases h
    exact .nil
  | cons t ts ih =>
    by_cases ht : ∃ name place span, t = .inclusion name place span
    · obtain ⟨name, place, span, rfl⟩ := ht
      obtain ⟨key, s₁, us, hresolve, hts, rfl⟩ := resolveAll_inclusion_cases h
      exact gathers_inclusion hpage hresolve (ih hts)
    · have hother : ∀ name place span, t ≠ .inclusion name place span :=
        fun name place span heq => ht ⟨name, place, span, heq⟩
      obtain ⟨us, rfl, hts⟩ := resolveAll_other hother h
      exact .other hother (ih hts)

theorem page_gathers (e : Engine) (n : Nat) : e.PageGathers n := by
  induction n with
  | zero => exact nofun
  | succ n ih =>
    intro source base s p s' h
    obtain ⟨hfault, us, rfl, hts⟩ := compileWith_iff.mp h
    exact ⟨n, us, rfl, hfault, rfl, gathers_of_resolveAll ih hts⟩

theorem page_iff : e.page (n + 1) source base s = (.ok p, s') ↔
    (e.outline source).fault = none ∧ ∃ us, p = .of e.folding source us ∧
      e.Gathers n base (e.outline source).tags s us s' := by
  constructor
  · intro h
    obtain ⟨m, us, hm, hfault, hp, hts⟩ := e.page_gathers (n + 1) source base s p s' h
    cases hm
    exact ⟨hfault, us, hp, hts⟩
  · rintro ⟨hfault, us, hp, hts⟩
    exact compileWith_iff.mpr ⟨hfault, us, hp, hts.resolveAll source⟩

theorem compile_iff {t : Template} (hfuel : e.fuel = n + 1) : (e.compile source).result = .ok t ↔
    (e.outline source).fault = none ∧ ∃ us s', t = ⟨.of e.folding source us, s'.includes⟩ ∧
      e.Gathers n "" (e.outline source).tags (.start none) us s' := by
  rw [compile, compileNamed, hfuel]
  cases hp : e.page (n + 1) source "" (.start none) with
  | mk result s' =>
    cases result with
    | error err =>
      refine ⟨nofun, ?_⟩
      rintro ⟨hfault, us, s', -, hts⟩
      have hpage := page_iff.mpr ⟨hfault, us, rfl, hts⟩
      rw [hp] at hpage
      cases hpage
    | ok p =>
      obtain ⟨hfault, us, rfl, hts⟩ := page_iff.mp hp
      refine ⟨?_, ?_⟩
      · rintro ⟨⟩
        exact ⟨hfault, us, s', rfl, hts⟩
      · rintro ⟨-, vs, s'', rfl, hvs⟩
        have hpage := page_iff.mpr ⟨hfault, vs, rfl, hvs⟩
        rw [hp] at hpage
        cases hpage
        rfl

theorem fuel_eq (e : Engine) : ∃ n, e.fuel = n + 1 := by
  unfold fuel
  split
  · exact ⟨_, rfl⟩
  · exact ⟨0, rfl⟩

theorem Gathers.compiles {name : Option String} (hfault : (e.outline source).fault = none)
    (h : e.Gathers n base (e.outline source).tags (.start name) us s') :
    e.Compiles name source base ⟨.of e.folding source us, s'.includes⟩ :=
  ⟨n + 1, s', page_iff.mpr ⟨hfault, us, rfl, h⟩, rfl⟩

end Engine

end Stencil

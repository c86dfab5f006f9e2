import Mathlib.Data.List.Dedup
import Mathlib.Logic.Function.Iterate
import Stencil.Proofs.Including.Pages
import Stencil.Proofs.Locating.Compiling
/-!
# What compiling loads

Compiling asks the loader for a path only if there is no page of it yet and none in progress. So it asks
for no path twice, and it is never deeper in pages that include each other than there are paths to load.
-/

namespace Stencil

namespace Gathering

/-! ## Paths asked for -/

/-- From the first state to the second one only new paths were asked for, each once. -/
def AsksOnce (s s' : Gathering) : Prop :=
  ∃ paths : List String, s'.asked = paths ++ s.asked ∧ paths.Nodup ∧ ∀ p ∈ paths, ¬ s.Knows p

/-- As above, and all went well: what was asked for has a page now. -/
structure Loads (s s' : Gathering) : Prop where
  extends_ : s.Extends s'
  asked : ∃ paths : List String, s'.asked = paths ++ s.asked ∧ paths.Nodup ∧
    ∀ p ∈ paths, ¬ s.Knows p ∧ s'.Knows p

variable {s s₁ s' t : Gathering} {path key : String}

theorem AsksOnce.of_eq (h : s'.asked = s.asked) : s.AsksOnce s' := ⟨[], h, List.nodup_nil, nofun⟩

theorem Loads.of_eq (hext : s.Extends s') (h : s'.asked = s.asked) : s.Loads s' :=
  ⟨hext, [], h, List.nodup_nil, nofun⟩

theorem Loads.asksOnce (h : s.Loads s') : s.AsksOnce s' := by
  obtain ⟨-, paths, hasked, hnodup, hpaths⟩ := h
  exact ⟨paths, hasked, hnodup, fun p hp => (hpaths p hp).1⟩

theorem AsksOnce.after (h : s.Loads s₁) (h' : s₁.AsksOnce s') : s.AsksOnce s' := by
  obtain ⟨hext, paths, hasked, hnodup, hpaths⟩ := h
  obtain ⟨paths', hasked', hnodup', hpaths'⟩ := h'
  refine ⟨paths' ++ paths, by rw [hasked', hasked, List.append_assoc], ?_, ?_⟩
  · rw [List.nodup_append]
    refine ⟨hnodup', hnodup, ?_⟩
    rintro p hp q hq rfl
    exact hpaths' p hp (hpaths p hq).2
  · intro p hp
    rcases List.mem_append.mp hp with hp | hp
    · exact fun hk => hpaths' p hp (hext.knows hk)
    · exact (hpaths p hp).1

theorem Loads.trans (h : s.Loads s₁) (h' : s₁.Loads s') : s.Loads s' := by
  obtain ⟨paths, hasked, hnodup, hpaths⟩ := AsksOnce.after h h'.asksOnce
  refine ⟨h.extends_.trans h'.extends_, paths, hasked, hnodup, ?_⟩
  intro p hp
  refine ⟨hpaths p hp, ?_⟩
  obtain ⟨-, paths₁, hasked₁, -, hpaths₁⟩ := h
  obtain ⟨hext', paths₂, hasked₂, -, hpaths₂⟩ := h'
  have hsplit : paths = paths₂ ++ paths₁ := by
    refine (List.append_left_inj s.asked).mp ?_
    rw [← hasked, hasked₂, hasked₁, List.append_assoc]
  rw [hsplit, List.mem_append] at hp
  rcases hp with hp | hp
  · exact (hpaths₂ p hp).2
  · exact hext'.knows (hpaths₁ p hp).2

theorem addTemplate_loads (s : Gathering) (key : String) (t : Template) :
    s.Loads (s.addTemplate key t) :=
  .of_eq ⟨rfl, fun _ hk => Dict.has_insert (Dict.has_mergeNew_left hk)⟩ rfl

/-! ## Pages in progress -/

theorem knows_enter : (s.enter path).Knows key ↔ key = path ∨ s.Knows key := by
  simp only [Knows, enter, ask, List.mem_cons]
  tauto

theorem AsksOnce.of_enter (hk : ¬ s.Knows path) (h : (s.enter path).AsksOnce t) : s.AsksOnce t := by
  obtain ⟨paths, hasked, hnodup, hpaths⟩ := h
  simp only [knows_enter, not_or] at hpaths
  refine ⟨paths ++ [path], by simp [hasked, enter, ask], ?_, ?_⟩
  · rw [List.nodup_append]
    refine ⟨hnodup, by simp, ?_⟩
    intro p hp q hq
    rw [List.mem_singleton.mp hq]
    exact (hpaths p hp).1
  · intro p hp
    rcases List.mem_append.mp hp with hp | hp
    · exact (hpaths p hp).2
    · rwa [List.mem_singleton.mp hp]

theorem Loads.leave (hk : ¬ s.Knows path) (h : (s.enter path).Loads t) (p : Page) :
    s.Loads (t.leave s path p) := by
  obtain ⟨paths, hasked, hnodup, hpaths⟩ := AsksOnce.of_enter hk h.asksOnce
  refine ⟨⟨rfl, fun k hk => Dict.has_insert (h.extends_.includes k hk)⟩, paths, hasked, hnodup, ?_⟩
  intro q hq
  refine ⟨hpaths q hq, .inl ?_⟩
  by_cases hpath : q = path
  · rw [hpath]
    exact Dict.has_insert_self
  · -- It was not in progress before, so it is among the pages.
    obtain ⟨hext, paths', hasked', -, hpaths'⟩ := h
    have hsplit : paths = paths' ++ [path] := by
      refine (List.append_left_inj s.asked).mp ?_
      have hleft : t.asked = paths ++ s.asked := hasked
      rw [← hleft, hasked']
      simp [enter, ask]
    have hq' : q ∈ paths' := by simpa [hsplit, hpath] using hq
    rcases (hpaths' q hq').2 with hhas | hprogress
    · exact Dict.has_insert hhas
    · rw [hext.inProgress] at hprogress
      rcases List.mem_cons.mp hprogress with heq | hprogress
      · exact absurd heq hpath
      · exact absurd (.inr hprogress) (hpaths q hq)

structure Frugal (s : Gathering) (r : Except Error α × Gathering) : Prop where
  asks : s.AsksOnce r.2
  loads : ∀ a, r.1 = .ok a → s.Loads r.2

theorem Frugal.ok {a : α} (h : s.Loads s') : s.Frugal (.ok a, s') := ⟨h.asksOnce, fun _ _ => h⟩

theorem Frugal.error {err : Error} (h : s.AsksOnce s') :
    s.Frugal ((.error err, s') : Except Error α × Gathering) := ⟨h, nofun⟩

end Gathering

namespace Engine

open Gathering

variable {e : Engine} {compile compile' : Compile} {n : Nat} {base name path source : String}
  {ts : List Tag} {s : Gathering}

/-! ## Each path once -/

def Compile.Frugal (compile : Compile) : Prop :=
  ∀ (source base : String) (s : Gathering), s.Frugal (compile source base s)

theorem load_frugal (hc : Compile.Frugal compile) (hk : ¬ s.Knows path) :
    s.Frugal (e.load compile path s) := by
  have hask : s.AsksOnce (s.ask path) := ⟨[path], rfl, by simp, by simpa using hk⟩
  unfold load
  split
  · exact .error (.of_eq rfl)
  · split
    · exact .error hask
    · next source _ =>
      have hpage := hc source (Path.directory path) (s.enter path)
      cases hr : compile source (Path.directory path) (s.enter path) with
      | mk result t =>
        rw [hr] at hpage
        simp only [enter] at hr
        rw [hr]
        cases result with
        | error err => exact .error (AsksOnce.of_enter hk hpage.asks)
        | ok p => exact .ok (Loads.leave hk (hpage.loads p rfl) p)

theorem resolve_frugal (hc : Compile.Frugal compile) : s.Frugal (e.resolve compile base name s) := by
  unfold resolve
  dsimp only
  split
  · exact .ok (.of_eq (.refl s) rfl)
  · next hk =>
    rw [knows_iff] at hk
    split
    · exact .ok (addTemplate_loads s _ _)
    · exact load_frugal hc hk

theorem resolveAll_frugal (hc : Compile.Frugal compile) (ts : List Tag) :
    s.Frugal (e.resolveAll compile source base ts s) := by
  -- the tags in front of an include have loaded something by then, so `s` varies
  induction ts generalizing s with
  | nil => exact .ok (.of_eq (.refl s) rfl)
  | cons t ts ih =>
    cases t with
    | inclusion name place span =>
      have hfirst : s.Frugal (e.resolve compile base name s) := resolve_frugal hc
      simp only [resolveAll]
      cases hr : e.resolve compile base name s with
      | mk result s₁ =>
        rw [hr] at hfirst
        cases result with
        | error err => exact .error hfirst.asks
        | ok key =>
          have hloads := hfirst.loads key rfl
          have hrest := ih (s := s₁)
          dsimp only
          cases hts : e.resolveAll compile source base ts s₁ with
          | mk result s₂ =>
            rw [hts] at hrest
            cases result with
            | error err => exact .error (.after hloads hrest.asks)
            | ok us => exact .ok (hloads.trans (hrest.loads us rfl))
    | _ =>
      have hrest : s.Frugal (e.resolveAll compile source base ts s) := ih
      simp only [resolveAll]
      cases hts : e.resolveAll compile source base ts s with
      | mk result s₁ =>
        rw [hts] at hrest
        cases result with
        | error err => exact .error hrest.asks
        | ok us => exact .ok (hrest.loads us rfl)

theorem compileWith_frugal (hc : Compile.Frugal compile) : Compile.Frugal (e.compileWith compile) := by
  intro source base s
  have hts : s.Frugal (e.resolveAll compile source base (e.outline source).tags s) :=
    resolveAll_frugal hc _
  unfold compileWith
  dsimp only
  cases hr : e.resolveAll compile source base (e.outline source).tags s with
  | mk result s₁ =>
    rw [hr] at hts
    cases result with
    | error err => exact .error hts.asks
    | ok us =>
      dsimp only
      split
      · exact .error hts.asks
      · exact .ok (hts.loads us rfl)

theorem page_frugal (e : Engine) (n : Nat) : Compile.Frugal (e.page n) := by
  induction n with
  | zero => exact fun _ _ _ => .error (.of_eq rfl)
  | succ n ih => exact compileWith_frugal ih

theorem compileNamed_asked (e : Engine) (name : Option String) (source base : String) :
    (e.compileNamed name source base).asked.Nodup ∧
      ∀ p ∈ (e.compileNamed name source base).asked, name ≠ some p := by
  have hpage := e.page_frugal e.fuel source base (.start name)
  obtain ⟨paths, hasked, hnodup, hpaths⟩ := hpage.asks
  have hreverse : (e.compileNamed name source base).asked = paths.reverse := by
    have hpaths : (e.page e.fuel source base (.start name)).2.asked = paths := by
      simpa [start] using hasked
    rw [← hpaths]
    unfold compileNamed
    cases e.page e.fuel source base (.start name) with
    | mk result s => cases result <;> rfl
  rw [hreverse]
  refine ⟨List.nodup_reverse.2 hnodup, ?_⟩
  rintro p hp rfl
  exact hpaths p (List.mem_reverse.mp hp) (.inr (by simp [start]))

/-! ## An end -/

theorem resolve_inProgress : (e.resolve compile base name s).2.inProgress = s.inProgress := by
  unfold resolve load
  dsimp only
  split
  · rfl
  · split
    · rfl
    · split
      · rfl
      · split
        · rfl
        · split <;> rfl

/-- Both compile a page alike that is in progress on top of some others. -/
def AgreeAbove (e : Engine) (progress : List String) (compile compile' : Compile) : Prop :=
  ∀ path source base s, e.Loadable path → path ∉ progress → s.inProgress = path :: progress →
    compile source base s = compile' source base s

theorem resolve_congr (h : e.AgreeAbove s.inProgress compile compile') :
    e.resolve compile base name s = e.resolve compile' base name s := by
  unfold resolve
  dsimp only
  split
  · rfl
  · next hk =>
    rw [knows_iff] at hk
    split
    · rfl
    · unfold load
      split
      · rfl
      · next loader hloader =>
        split
        · rfl
        · next source hsource =>
          rw [h _ source _ _ ⟨base, name, source, loader, rfl, hloader, hsource⟩
            (fun hmem => hk (.inr hmem)) rfl]

theorem resolveAll_congr (h : e.AgreeAbove s.inProgress compile compile') :
    e.resolveAll compile source base ts s = e.resolveAll compile' source base ts s := by
  induction ts generalizing s with
  | nil => rfl
  | cons t ts ih =>
    cases t with
    | inclusion name place span =>
      have hprogress : (e.resolve compile' base name s).2.inProgress = s.inProgress :=
        resolve_inProgress
      simp only [resolveAll]
      rw [resolve_congr h]
      cases hr : e.resolve compile' base name s with
      | mk result s₁ =>
        rw [hr] at hprogress
        cases result with
        | error err => rfl
        | ok key =>
          dsimp only at hprogress ⊢
          rw [ih (hprogress ▸ h)]
    | _ =>
      simp only [resolveAll]
      rw [ih h]

theorem compileWith_congr (h : e.AgreeAbove s.inProgress compile compile') :
    e.compileWith compile source base s = e.compileWith compile' source base s := by
  unfold compileWith
  dsimp only
  rw [resolveAll_congr h]

theorem length_left_lt {paths progress : List String} (hpath : path ∈ paths) (h : path ∉ progress) :
    (paths.filter (· ∉ path :: progress)).length < (paths.filter (· ∉ progress)).length := by
  have hfilter : paths.filter (· ∉ path :: progress) =
      (paths.filter (· ∉ progress)).filter (· ≠ path) := by
    rw [List.filter_filter]
    congr 1
    funext p
    simp
  rw [hfilter, List.length_filter_lt_length_iff_exists]
  exact ⟨path, List.mem_filter.mpr ⟨hpath, by simpa using h⟩, by simp⟩

/-- Every page in progress leaves one path less to load. Where there are no more of them than levels,
what would be compiled below does not matter. -/
theorem iterate_congr {paths : List String} (hpaths : ∀ p, e.Loadable p → p ∈ paths)
    (h : (paths.filter (· ∉ s.inProgress)).length < n) (compile compile' : Compile) :
    (e.compileWith^[n] compile) source base s = (e.compileWith^[n] compile') source base s := by
  induction n generalizing source base s with
  | zero => omega
  | succ n ih =>
    rw [Function.iterate_succ_apply', Function.iterate_succ_apply']
    apply compileWith_congr
    intro path source' base' t hload hnew ht
    apply ih
    have hlt := length_left_lt (hpaths path hload) hnew
    rw [ht]
    omega

theorem iterate_settles {paths : List String} (hpaths : ∀ p, e.Loadable p → p ∈ paths)
    (hn : paths.length < n) (compile compile' : Compile) :
    (e.compileWith^[n] compile) source base s =
      (e.compileWith^[paths.length + 1] compile') source base s := by
  obtain ⟨k, rfl⟩ := Nat.exists_eq_add_of_lt hn
  rw [show paths.length + k + 1 = paths.length + 1 + k by omega, Function.iterate_add_apply]
  apply iterate_congr hpaths
  have hle := List.length_filter_le (· ∉ s.inProgress) paths
  omega

theorem page_eq_iterate (e : Engine) (n : Nat) : e.page n = e.compileWith^[n] (e.page 0) := by
  induction n with
  | zero => rfl
  | succ n ih => rw [Function.iterate_succ_apply', ← ih, page]

theorem page_fuel (hreach : ∀ l, e.loader = some l → l.Bounded) {paths : List String}
    (hpaths : ∀ p, e.Loadable p → p ∈ paths) :
    e.page e.fuel source base s =
      (e.compileWith^[paths.length + 1] (e.page 0)) source base s := by
  classical
  -- The loader need not reach as far as the list, only as far as what is there to load.
  let loadable := (paths.filter (e.Loadable ·)).dedup
  have hloadable : ∀ p, e.Loadable p → p ∈ loadable := fun p hp => by
    simp [loadable, hpaths p hp, hp]
  have hfuel : loadable.length < e.fuel :=
    farsighted_of_bounded hreach loadable (List.nodup_dedup _) fun p hp => by
      simpa [loadable] using (List.mem_filter.mp (List.mem_dedup.mp hp)).2
  have hlist : loadable.length < paths.length + 1 :=
    Nat.lt_succ_of_le ((List.dedup_sublist _).trans List.filter_sublist).length_le
  rw [page_eq_iterate, iterate_settles hloadable hfuel (e.page 0) (e.page 0),
    iterate_settles hloadable hlist (e.page 0) (e.page 0)]

/-- Compiling goes no deeper than there are paths with a source, whatever would be compiled below, and
none of the ways to compile asks for a path twice. -/
theorem compiling_ends {paths : List String}
    (hpaths : ∀ l path source, e.loader = some l → l.answer path = .ok source → path ∈ paths)
    (hreach : ∀ l, e.loader = some l → l.Bounded) :
    (∀ name source base n compile, paths.length < n →
      (e.compileWith^[n] compile) source base (.start name) =
        e.page e.fuel source base (.start name)) ∧
    (∀ source, (e.compile source).asked.Nodup) ∧
    (∀ path, (e.compileFile path).asked.Nodup) ∧
    ∀ name source, (e.addTemplate name source).asked.Nodup := by
  have hloadable : ∀ p, e.Loadable p → p ∈ paths := by
    rintro p ⟨base, name, source, l, -, hl, hsource⟩
    exact hpaths l p source hl hsource
  refine ⟨?_, ?_, ?_, ?_⟩
  · intro name source base n compile hn
    rw [page_fuel hreach hloadable, iterate_settles hloadable hn compile (e.page 0)]
  · intro source
    exact (e.compileNamed_asked none source "").1
  · intro path
    unfold compileFile
    split
    · simp
    · next l hl =>
      split
      · simp
      · next source hsource =>
        obtain ⟨hnodup, hpath⟩ := e.compileNamed_asked (some path) source (Path.directory path)
        exact List.nodup_cons.mpr ⟨fun hmem => hpath path hmem rfl, hnodup⟩
  · intro name source
    exact (e.compileNamed_asked (some name) source (Path.directory name)).1

def knot : Engine where
  loader := some
    ⟨fun path => if path = "a" then .ok loopSource else .error (.ofFault (.unknownTemplate path)), 1⟩

theorem knot_ends :
    (knot.compileWith^[2] (knot.page 0)) loopSource "" (.start none) =
      knot.page knot.fuel loopSource "" (.start none) ∧
    (knot.compile loopSource).asked.Nodup ∧ (knot.compileFile "a").asked.Nodup ∧
    (knot.addTemplate "b" loopSource).asked.Nodup := by
  have hpaths : ∀ l path source, knot.loader = some l → l.answer path = .ok source → path ∈ ["a"] := by
    rintro l path source ⟨⟩ hsource
    by_contra hpath
    simp_all
  have hreach : ∀ l, knot.loader = some l → l.Bounded := by
    rintro l ⟨⟩ paths hnodup hpaths
    have hsubset : paths ⊆ ["a"] := by
      intro p hp
      obtain ⟨base, name, source, -, hsource⟩ := hpaths p hp
      by_contra hpath
      simp_all
    exact hnodup.length_le_of_subset hsubset
  have hends := compiling_ends hpaths hreach
  exact ⟨hends.1 none loopSource "" 2 (knot.page 0) (by decide), hends.2.1 loopSource,
    hends.2.2.1 "a", hends.2.2.2 "b" loopSource⟩

end Engine

end Stencil

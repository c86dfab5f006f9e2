import Stencil.Engine
import Stencil.Proofs.Dict
import Stencil.Proofs.Placement.Outline
/-!
# What compiling gathers

Compiling a source gives a page whose tags stand in the source, and gathers a page for every key that
they name, for the keys in those pages, and so on. Only the pages in progress are still missing then.
-/

namespace Stencil

/-! ## Pages -/

/-- The tags of the page stand in its source, and all blocks are closed. -/
structure Page.Sound (p : Page) : Prop where
  placed : ∀ t ∈ p.tags, t.Placed p.source.toList
  closed : Opened.run? [] p.tags = some []

def Page.Includes (p : Page) (key : String) : Prop :=
  ∃ place span, Tag.inclusion key place span ∈ p.tags

namespace Template

def Knows (name : Option String) (t : Template) (key : String) : Prop :=
  t.includes.has key ∨ name = some key

/-- A template whose pages are sound and have nothing to include that it does not know. -/
structure Sound (name : Option String) (t : Template) : Prop where
  root : t.page.Sound
  pages : ∀ entry ∈ t.includes, entry.2.Sound
  root_closed : ∀ key, t.page.Includes key → t.Knows name key
  closed : ∀ entry ∈ t.includes, ∀ key, entry.2.Includes key → t.Knows name key

end Template

def Engine.Sound (e : Engine) : Prop :=
  ∀ name t, e.templates.find? name = some t → t.Sound (some name)

/-! ## Gathered pages -/

namespace Gathering

def Knows (s : Gathering) (key : String) : Prop := s.includes.has key ∨ key ∈ s.inProgress

structure Sound (s : Gathering) : Prop where
  pages : ∀ entry ∈ s.includes, entry.2.Sound
  closed : ∀ entry ∈ s.includes, ∀ key, entry.2.Includes key → s.Knows key

/-- More pages have been gathered, and none is in progress besides those that were. -/
structure Extends (s s' : Gathering) : Prop where
  inProgress : s'.inProgress = s.inProgress
  includes : ∀ key, s.includes.has key → s'.includes.has key

variable {s s' s'' : Gathering}

theorem Extends.refl (s : Gathering) : s.Extends s := ⟨rfl, fun _ h => h⟩

theorem Extends.trans (h : s.Extends s') (h' : s'.Extends s'') : s.Extends s'' :=
  ⟨h'.inProgress.trans h.inProgress, fun key hk => h'.includes key (h.includes key hk)⟩

theorem Extends.knows (h : s.Extends s') {key : String} (hk : s.Knows key) : s'.Knows key := by
  rcases hk with hk | hk
  · exact .inl (h.includes key hk)
  · exact .inr (h.inProgress ▸ hk)

theorem start_sound (name : Option String) : (start name).Sound := ⟨nofun, nofun⟩

theorem addTemplate_sound (hs : s.Sound) {key : String} {t : Template} (ht : t.Sound (some key)) :
    (s.addTemplate key t).Sound ∧ s.Extends (s.addTemplate key t) ∧
      (s.addTemplate key t).Knows key := by
  have hself : (s.addTemplate key t).includes.has key := Dict.has_insert_self
  have hextends : s.Extends (s.addTemplate key t) :=
    ⟨rfl, fun k hk => Dict.has_insert (Dict.has_mergeNew_left hk)⟩
  have hknows : ∀ k, t.Knows (some key) k → (s.addTemplate key t).Knows k := by
    rintro k (hk | hk)
    · exact .inl (Dict.has_insert (Dict.has_mergeNew_right hk))
    · cases hk
      exact .inl hself
  refine ⟨⟨?_, ?_⟩, hextends, .inl hself⟩
  · intro entry hentry
    rcases Dict.mem_insert hentry with rfl | hentry
    · exact ht.root
    · rcases Dict.mem_mergeNew hentry with hentry | hentry
      · exact hs.pages entry hentry
      · exact ht.pages entry hentry
  · intro entry hentry k hk
    rcases Dict.mem_insert hentry with rfl | hentry
    · exact hknows k (ht.root_closed k hk)
    · rcases Dict.mem_mergeNew hentry with hentry | hentry
      · exact hextends.knows (hs.closed entry hentry k hk)
      · exact hknows k (ht.closed entry hentry k hk)

theorem insert_sound {path : String} {s t : Gathering} {page : Page}
    (hs : t.inProgress = path :: s.inProgress) (ht : t.Sound) (hpage : page.Sound)
    (hclosed : ∀ key, page.Includes key → t.Knows key) :
    Sound { t with inProgress := s.inProgress, includes := t.includes.insert path page } := by
  have hknows : ∀ key, t.Knows key →
      Knows { t with inProgress := s.inProgress, includes := t.includes.insert path page } key := by
    rintro key (hk | hk)
    · exact .inl (Dict.has_insert hk)
    · rw [hs] at hk
      rcases List.mem_cons.mp hk with rfl | hk
      · exact .inl Dict.has_insert_self
      · exact .inr hk
  refine ⟨?_, ?_⟩
  · intro entry hentry
    rcases Dict.mem_insert hentry with rfl | hentry
    · exact hpage
    · exact ht.pages entry hentry
  · intro entry hentry key hk
    rcases Dict.mem_insert hentry with rfl | hentry
    · exact hknows key (hclosed key hk)
    · exact hknows key (ht.closed entry hentry key hk)

end Gathering

namespace Engine

open Gathering

/-! ## Resolving an include -/

def Compile.Sound (compile : Compile) : Prop :=
  ∀ source base s page s', Gathering.Sound s → compile source base s = (.ok page, s') →
    page.Sound ∧ (∀ key, page.Includes key → s'.Knows key) ∧ s'.Sound ∧ s.Extends s'

variable {e : Engine} {compile : Compile} {s s' : Gathering} {base name path key : String}

theorem find?_of_registered? {t : Template} (h : e.registered? name path = some (key, t)) :
    e.templates.find? key = some t := by
  unfold registered? at h
  rcases Option.or_eq_some_iff.mp h with h | ⟨_, h⟩
  · obtain ⟨t', ht, he⟩ := Option.map_eq_some_iff.mp h
    cases he
    exact ht
  · obtain ⟨t', ht, he⟩ := Option.map_eq_some_iff.mp h
    cases he
    exact ht

theorem load_sound (hc : compile.Sound) (hs : s.Sound)
    (h : e.load compile path s = (.ok key, s')) : s'.Knows key ∧ s'.Sound ∧ s.Extends s' := by
  unfold load at h
  split at h
  · cases h
  · next loader _ =>
    split at h
    · cases h
    · next source _ =>
      have hstart : Gathering.Sound { s.ask path with inProgress := path :: s.inProgress } :=
        ⟨hs.pages, fun entry he k hk =>
          (hs.closed entry he k hk).imp_right (List.mem_cons_of_mem path)⟩
      dsimp only at h
      cases hcompile : compile source (Path.directory path)
          { s.ask path with inProgress := path :: s.inProgress } with
      | mk result t =>
        rw [hcompile] at h
        cases result with
        | error err => cases h
        | ok page =>
          obtain ⟨hpage, hclosed, ht, hext⟩ := hc _ _ _ _ _ hstart hcompile
          cases h
          refine ⟨.inl Dict.has_insert_self, insert_sound hext.inProgress ht hpage hclosed, rfl, ?_⟩
          intro k hk
          exact Dict.has_insert (hext.includes k hk)

theorem resolve_sound (he : e.Sound) (hc : compile.Sound) (hs : s.Sound)
    (h : e.resolve compile base name s = (.ok key, s')) :
    s'.Knows key ∧ s'.Sound ∧ s.Extends s' := by
  unfold resolve at h
  dsimp only at h
  split at h
  · next hknown =>
    cases h
    refine ⟨?_, hs, .refl s⟩
    rcases Bool.or_eq_true_iff.mp hknown with hk | hk
    · exact .inl hk
    · exact .inr (List.contains_iff_mem.mp hk)
  · split at h
    · next key' t hregistered =>
      cases h
      obtain ⟨hsound, hext, hknows⟩ := addTemplate_sound hs (he _ _ (find?_of_registered? hregistered))
      exact ⟨hknows, hsound, hext⟩
    · exact load_sound hc hs h

/-! ## Resolving all of them -/

structure Resolved (source : String) (ts ts' : List Tag) (s s' : Gathering) : Prop where
  placed : (∀ t ∈ ts, t.Placed source.toList) → ∀ t ∈ ts', t.Placed source.toList
  run : ∀ opened, Opened.run? opened ts' = Opened.run? opened ts
  known : ∀ key place span, Tag.inclusion key place span ∈ ts' → s'.Knows key
  sound : s'.Sound
  extends_ : s.Extends s'

theorem Resolved.cons {source : String} {t t' : Tag} {ts ts' : List Tag} {s₁ : Gathering}
    (hplaced : t.Placed source.toList → t'.Placed source.toList)
    (hstep : ∀ opened, Opened.step? opened t' = Opened.step? opened t)
    (hknown : ∀ key place span, t' = .inclusion key place span → s₁.Knows key)
    (hext : s.Extends s₁) (h : Resolved source ts ts' s₁ s') :
    Resolved source (t :: ts) (t' :: ts') s s' := by
  refine ⟨?_, ?_, ?_, h.sound, hext.trans h.extends_⟩
  · intro hts
    rw [List.forall_mem_cons] at hts ⊢
    exact ⟨hplaced hts.1, h.placed hts.2⟩
  · intro opened
    rw [Opened.run?, Opened.run?, hstep]
    congr 1
    funext opened'
    exact h.run opened'
  · intro key place span hk
    rcases List.mem_cons.mp hk with hk | hk
    · exact h.extends_.knows (hknown key place span hk.symm)
    · exact h.known key place span hk

theorem resolveAll_other {source : String} {t : Tag} {ts ts' : List Tag}
    (ht : ∀ name place span, t ≠ .inclusion name place span)
    (h : e.resolveAll compile source base (t :: ts) s = (.ok ts', s')) :
    ∃ us, ts' = t :: us ∧ e.resolveAll compile source base ts s = (.ok us, s') := by
  cases hts : e.resolveAll compile source base ts s with
  | mk result s₁ =>
    cases t with
    | inclusion name place span => exact absurd rfl (ht name place span)
    | _ =>
      rw [resolveAll, hts] at h
      · cases result with
        | error err => cases h
        | ok us =>
          cases h
          exact ⟨us, rfl, rfl⟩
      · exact ht

theorem resolveAll_sound (he : e.Sound) (hc : compile.Sound) {source : String} {ts ts' : List Tag}
    (hs : s.Sound) (h : e.resolveAll compile source base ts s = (.ok ts', s')) :
    Resolved source ts ts' s s' := by
  induction ts generalizing ts' s with
  | nil =>
    cases h
    exact ⟨fun h => h, fun _ => rfl, nofun, hs, .refl _⟩
  | cons t ts ih =>
    by_cases ht : ∃ name place span, t = .inclusion name place span
    · obtain ⟨name, place, span, rfl⟩ := ht
      rw [resolveAll] at h
      cases hr : e.resolve compile base name s with
      | mk result s₁ =>
        rw [hr] at h
        cases result with
        | error err => cases h
        | ok key =>
          obtain ⟨hknows, hs₁, hext⟩ := resolve_sound he hc hs hr
          cases hts : e.resolveAll compile source base ts s₁ with
          | mk result s₂ =>
            dsimp only at h
            rw [hts] at h
            cases result with
            | error err => cases h
            | ok us =>
              cases h
              refine (ih hs₁ hts).cons (fun hplaced => hplaced) (fun _ => rfl) ?_ hext
              rintro key' place' span' ⟨⟩
              exact hknows
    · have hother : ∀ name place span, t ≠ .inclusion name place span :=
        fun name place span heq => ht ⟨name, place, span, heq⟩
      obtain ⟨us, rfl, hts⟩ := resolveAll_other hother h
      exact (ih hs hts).cons (fun hplaced => hplaced) (fun _ => rfl)
        (fun key place span heq => absurd heq (hother key place span)) (.refl s)

/-! ## Compiling -/

theorem outline_sound (e : Engine) (source : String) :
    (e.outline source).Sound source.toList [] :=
  Grammar.outline_sound (Grammar.of_fits source e.markup.paths e.functions)
    (Token.scan_placed e.markup source)

theorem compileWith_sound (he : e.Sound) (hc : compile.Sound) :
    Compile.Sound (e.compileWith compile) := by
  intro source base s page s' hs h
  have houtline := e.outline_sound source
  unfold compileWith at h
  dsimp only at h
  cases hr : e.resolveAll compile source base (e.outline source).tags s with
  | mk result s₁ =>
    rw [hr] at h
    cases result with
    | error err => cases h
    | ok tags =>
      have hresolved := resolveAll_sound he hc hs hr
      dsimp only at h
      split at h
      · cases h
      · next hfault =>
        cases h
        refine ⟨⟨hresolved.placed houtline.tags, ?_⟩, ?_, hresolved.sound, hresolved.extends_⟩
        · exact (hresolved.run []).trans (houtline.closed hfault)
        · rintro key ⟨place, span, hk⟩
          exact hresolved.known key place span hk

theorem page_sound (he : e.Sound) (n : Nat) : Compile.Sound (e.page n) := by
  induction n with
  | zero =>
    intro source base s page s' hs h
    cases h
  | succ n ih => exact compileWith_sound he ih

end Engine

end Stencil

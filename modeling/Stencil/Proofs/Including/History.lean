import Stencil.Proofs.Including.Gathering
import Stencil.Session
/-!
# What engines go through

`Engine.Reached` holds of the engines that their operations lead to, in any order and with any sources,
loaders and callbacks on the way. `Engine.Offers` holds of the templates that such an engine can render.
Both know the templates only as what compiling comes to, so they do not depend on how far it looks.
-/

namespace Stencil

namespace Engine

def Compiles (e : Engine) (name : Option String) (source base : String) (t : Template) : Prop :=
  ∃ n s, e.page n source base (.start name) = (.ok t.page, s) ∧ s.includes = t.includes

/-- The engines that a new one can become. -/
inductive Reached : Engine → Prop
  | fresh (markup : Markup) (loader : Option Loader) (sorting : Sorting) :
    Reached { markup := markup, loader := loader, sorting := sorting }
  | addTemplate {e : Engine} {name source : String} {t : Template} : Reached e →
    e.Compiles (some name) source (Path.directory name) t →
      Reached { e with templates := e.templates.insert name t }
  | addCallback {e : Engine} (name : String) (arity : Arity) (f : Callback) : Reached e →
    Reached (e.addCallback name arity f)
  | supply {e : Engine} (loader : Option Loader) : Reached e → Reached { e with loader := loader }
  | limit {e : Engine} (n : Nat) : Reached e → Reached { e with maxDepth := n }

/-- The templates that an engine can render: those made from a source, from a file of the loader, and
the registered ones. -/
inductive Offers (e : Engine) : Option String → Template → Prop
  | source {source : String} {t : Template} : e.Compiles none source "" t → Offers e none t
  | file {path source : String} {t : Template} {loader : Loader} : e.loader = some loader →
    loader.answer path = .ok source → e.Compiles (some path) source (Path.directory path) t →
      Offers e (some path) t
  | registered {name : String} {t : Template} : e.templates.find? name = some t →
    Offers e (some name) t

variable {e e' : Engine} {name : Option String} {t : Template} {asked : List String}

/-! ## The operations -/

theorem compiles_of_compileNamed {source base : String}
    (h : e.compileNamed name source base = ⟨.ok t, asked⟩) : e.Compiles name source base t := by
  unfold compileNamed at h
  cases hp : e.page e.fuel source base (.start name) with
  | mk result s =>
    rw [hp] at h
    cases result with
    | error err => cases h
    | ok page =>
      cases h
      exact ⟨e.fuel, s, hp, rfl⟩

theorem offers_of_compile {source : String} (h : e.compile source = ⟨.ok t, asked⟩) :
    e.Offers none t := .source (compiles_of_compileNamed h)

theorem offers_of_compileFile {path : String} (h : e.compileFile path = ⟨.ok t, asked⟩) :
    e.Offers (some path) t := by
  unfold compileFile at h
  split at h
  · cases h
  · next loader hloader =>
    split at h
    · cases h
    · next source hsource =>
      cases hc : e.compileNamed (some path) source (Path.directory path) with
      | mk result asked' =>
        rw [hc] at h
        cases h
        exact .file hloader hsource (compiles_of_compileNamed hc)

theorem sound_of_compiles (he : e.Sound) {source base : String} (h : e.Compiles name source base t) :
    t.Sound name := by
  obtain ⟨n, s, hpage, hincludes⟩ := h
  obtain ⟨hroot, hclosed, hs, hext⟩ :=
    page_sound he n source base _ t.page s (Gathering.start_sound name) hpage
  have hknows : ∀ key, s.Knows key → t.Knows name key := by
    rintro key (hk | hk)
    · exact .inl (hincludes ▸ hk)
    · rw [hext.inProgress] at hk
      exact .inr (Option.mem_toList.mp hk)
  exact ⟨hroot, hincludes ▸ hs.pages, fun key hk => hknows key (hclosed key hk),
    fun entry he key hk => hknows key (hs.closed entry (hincludes ▸ he) key hk)⟩

/-- Whatever an engine goes through, its templates are sound. -/
theorem Reached.sound (h : e.Reached) : e.Sound := by
  induction h with
  | fresh markup loader =>
    intro name t ht
    cases ht
  | @addTemplate e name source t _ hc ih =>
    intro name' t' ht
    by_cases hn : name' = name
    · subst hn
      rw [Dict.find?_insert_self] at ht
      cases ht
      exact sound_of_compiles ih hc
    · rw [Dict.find?_insert_ne hn] at ht
      exact ih name' t' ht
  | addCallback name arity f _ ih => exact ih
  | supply loader _ ih => exact ih
  | limit n _ ih => exact ih

theorem Reached.sound_of_offers (he : e.Reached) (h : e.Offers name t) : t.Sound name := by
  cases h with
  | source h => exact sound_of_compiles he.sound h
  | file _ _ h => exact sound_of_compiles he.sound h
  | registered h => exact he.sound _ _ h

end Engine

/-! ## Sessions -/

namespace Session

end Session

end Stencil

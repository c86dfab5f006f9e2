import Mathlib.Logic.Relation
import Stencil.Proofs.Including.Gathers
import Stencil.Proofs.Locating.Origins
/-!
# Where compiling fails

A source that is compiled opens those that it loads for its includes, each as a draft of its own. An
error comes from one of these drafts, and leaves it with the source and the name of that one.
-/

namespace Stencil

structure Draft where
  name : Option String
  source : String
  base : String
  state : Gathering

def Draft.root (name : Option String) (source base : String) : Draft :=
  ⟨name, source, base, .start name⟩

namespace Engine

open Gathering

/-! ## Drafts -/

def Asks (e : Engine) (d : Draft) (path : String) (place : Span) (s : Gathering) : Prop :=
  ∃ name span before after n us, path = Path.normal d.base name ∧
    (e.outline d.source).tags = before ++ .inclusion name place span :: after ∧
    e.Gathers n d.base before d.state us s ∧ ¬ s.Knows path ∧ e.registered? name path = none

theorem Asks.unknown {e : Engine} {d : Draft} {path : String} {place : Span} {s : Gathering}
    (h : e.Asks d path place s) : ¬ s.Knows path := by
  obtain ⟨name, span, before, after, n, us, -, -, -, hk, -⟩ := h
  exact hk

/-- The second draft is what the first one loads for an include. -/
def Opens (e : Engine) (d d' : Draft) : Prop :=
  ∃ path place s loader source, e.Asks d path place s ∧ e.loader = some loader ∧
    loader.answer path = .ok source ∧ d' = ⟨some path, source, Path.directory path, s.enter path⟩

/-- The draft itself cannot be compiled, for an error at a place of its source. -/
inductive Fails (e : Engine) (d : Draft) : Error → Span → Prop
  | outline {n : Nat} {us : List Tag} {s : Gathering} {r : Reject} :
    e.Gathers n d.base (e.outline d.source).tags d.state us s →
      (e.outline d.source).fault = some r → Fails e d (.ofFault r.fault) r.span
  | noLoader {path : String} {place : Span} {s : Gathering} : e.Asks d path place s →
    e.loader = none → Fails e d (.ofFault (.noLoader path)) place
  | load {path : String} {place : Span} {s : Gathering} {loader : Loader} {raised : Error} :
    e.Asks d path place s → e.loader = some loader → loader.answer path = .error raised →
      Fails e d raised place

variable {e : Engine} {d d' : Draft} {compile : Compile} {n : Nat} {base name path source : String}
  {place span : Span} {ts : List Tag} {s s' : Gathering} {err raised : Error}

theorem Fails.inside (h : e.Fails d raised span) : span.Inside d.source.toList := by
  have houtline := e.outline_sound d.source
  have hasks : ∀ {path : String} {place : Span} {s : Gathering}, e.Asks d path place s →
      place.Inside d.source.toList := by
    rintro path place s ⟨name, span, before, after, n, us, -, htags, -⟩
    have hplaced : (Tag.inclusion name place span).Placed d.source.toList :=
      houtline.tags _ (by rw [htags]; simp)
    exact hplaced.1
  cases h with
  | outline _ hr => exact houtline.fault _ hr
  | noLoader hask _ => exact hasks hask
  | load hask _ _ => exact hasks hask

def Room (e : Engine) (s : Gathering) (n : Nat) : Prop :=
  ∃ paths : List String, paths.Nodup ∧ (∀ p ∈ paths, p ∈ s.inProgress ∧ e.Loadable p) ∧
    paths.length + n = e.fuel

theorem Room.enter (h : e.Room s (n + 1)) (hk : ¬ s.Knows path) (hload : e.Loadable path) :
    e.Room (s.enter path) n := by
  obtain ⟨paths, hnodup, hpaths, hlength⟩ := h
  refine ⟨path :: paths, List.nodup_cons.mpr ⟨fun hmem => hk (.inr (hpaths path hmem).1), hnodup⟩,
    ?_, by rw [List.length_cons]; omega⟩
  rw [List.forall_mem_cons]
  refine ⟨⟨List.mem_cons_self, hload⟩, fun p hp => ?_⟩
  exact ⟨List.mem_cons_of_mem path (hpaths p hp).1, (hpaths p hp).2⟩

end Engine

end Stencil

import Stencil.Proofs.Including.History
import Stencil.Proofs.Loading.Disk
/-!
# The loaders of sessions

In a session the engine loads from a disk or from a shelf, and knows how far these reach. So compiling
looks far enough.
-/

namespace Stencil

namespace Engine

def Loadable (e : Engine) (path : String) : Prop :=
  ∃ base name source loader, path = Path.normal base name ∧ e.loader = some loader ∧
    loader.answer path = .ok source

/-- Compiling looks further than there are paths to load. -/
def Farsighted (e : Engine) : Prop :=
  ∀ paths : List String, paths.Nodup → (∀ p ∈ paths, e.Loadable p) → paths.length < e.fuel

theorem farsighted_of_bounded {e : Engine} (h : ∀ l, e.loader = some l → l.Bounded) :
    e.Farsighted := by
  intro paths hnodup hpaths
  unfold fuel
  cases hloader : e.loader with
  | none =>
    cases paths with
    | nil => exact Nat.one_pos
    | cons p ps =>
      obtain ⟨base, name, source, loader, -, hsome, -⟩ := hpaths p List.mem_cons_self
      rw [hloader] at hsome
      cases hsome
  | some l =>
    refine Nat.lt_succ_of_le (h l hloader paths hnodup fun p hp => ?_)
    obtain ⟨base, name, source, loader, hpath, hsome, hanswer⟩ := hpaths p hp
    rw [hloader] at hsome
    cases hsome
    exact ⟨base, name, source, hpath, hanswer⟩

end Engine

namespace Session

def after (s : Session) (steps : List Step) : Session := steps.foldl (fun s st => (s.step st).2) s

end Session

end Stencil

import Stencil.Disk
import Stencil.Proofs.Loading.Path
import Stencil.Proofs.Rendering.Steps
/-!
# What a disk has to load

A normal path to a file leads some steps up from the root and then down to the file. So no more normal
paths have a source than there are pairs of a file and a directory on the way to the root.
-/

namespace Stencil

/-- No more normal paths have a source than the loader reaches. -/
def Loader.Bounded (l : Loader) : Prop :=
  ∀ paths : List String, paths.Nodup →
    (∀ p ∈ paths, ∃ base name source, p = Path.normal base name ∧ l.answer p = .ok source) →
      paths.length ≤ l.reach

namespace Disk

open Stencil.Path

variable {d : Disk} {root path : String} {text : String} {names : List String}

/-! ## Names -/

variable {here there : List String} {name : String} {place : Place}

end Disk

end Stencil

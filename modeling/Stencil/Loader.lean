import Stencil.Error
/-!
# Loaders

Where the sources of templates come from that nobody has registered.
-/

namespace Stencil

structure Loader where
  answer : String → Except Error String
  /-- At least the number of normal paths that have a source. It only makes compiling a recursion, and
  `Engine.compiling_ends` shows that compiling never comes that far. -/
  reach : Nat

end Stencil

import Stencil.Proofs.Locating.Compiling
import Stencil.Proofs.Locating.Rendering
import Stencil.Proofs.Including.Source
import Stencil.Proofs.Simulation.Engine
import Stencil.Proofs.Writing.Engine
/-!
# Errors point into the template that they name

The errors of compiling and of rendering have a source with a span in it, and the name that this source
was entered under, however deep it is nested. What callbacks and loaders return is an exception where it
comes with a place or a name already.
-/

namespace Stencil

namespace Engine

variable {e : Engine} {name : Option String} {t : Template}

end Engine

end Stencil

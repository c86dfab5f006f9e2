import Stencil.Body
import Stencil.Dict
import Stencil.Emitter
/-!
# Templates

A page is one source with its tags and its program. A template is a page with all pages that it may
come to include.
-/

namespace Stencil

structure Page where
  source : String
  tags : List Tag
  folding : Bool
  code : Array Instr
  code_eq : code = Emitter.program folding tags

namespace Page

def of (folding : Bool) (source : String) (tags : List Tag) : Page :=
  ⟨source, tags, folding, Emitter.program folding tags, rfl⟩

def body (p : Page) : Body := .ofTags p.tags

end Page

structure Template where
  page : Page
  /-- The pages to include, by the keys in the programs. -/
  includes : Dict Page

end Stencil

/-!
# Ranges of characters

A table of characters is a list of ranges of code points, ends included.
-/

namespace Stencil

def inRanges (ranges : List (Nat × Nat)) (c : Char) : Bool :=
  ranges.any fun (first, last) => first ≤ c.toNat && c.toNat ≤ last

end Stencil

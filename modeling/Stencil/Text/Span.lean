/-!
# Spans

Places in a source are counted in bytes of its UTF-8 form. A span is the part from one place up to
another.
-/

namespace Stencil

structure Span where
  start : Nat
  stop : Nat
deriving DecidableEq

namespace Span

def point (n : Nat) : Span := ⟨n, n⟩

def join (a b : Span) : Span := ⟨min a.start b.start, max a.stop b.stop⟩

end Span

def byteSize : List Char → Nat
  | [] => 0
  | c :: cs => c.utf8Size + byteSize cs

/-- The characters before and after a place. There is no such cut inside of a character, or past
the end. -/
def cut? : List Char → Nat → Option (List Char × List Char)
  | cs, 0 => some ([], cs)
  | [], _ + 1 => none
  | c :: cs, n + 1 =>
    if c.utf8Size ≤ n + 1 then
      (cut? cs (n + 1 - c.utf8Size)).map fun (before, after) => (c :: before, after)
    else none

def slice? (cs : List Char) (s : Span) : Option (List Char) := do
  if s.stop < s.start then none
  let (_, after) ← cut? cs s.start
  let (text, _) ← cut? after (s.stop - s.start)
  return text

end Stencil

import Stencil.Markup
/-!
# Searching for openers

The search goes over the bytes of a source. It moves from one byte that an opener may begin with to the
next one, and tries the openers there in their order.
-/

namespace Stencil

/-- The openers of a markup in bytes, with all bytes that they begin with. -/
structure Searcher where
  openers : List (TagKind × List UInt8)
  starts : List UInt8

namespace Searcher

/-- Whether an opener stands at a place. A line mark counts only where a line begins. -/
def standsAt (bytes : List UInt8) (place : Nat) (o : TagKind × List UInt8) : Bool :=
  o.2.isPrefixOf (bytes.drop place) &&
    (o.1 != .line || place == 0 || bytes[place - 1]? == some 10)

def findAt (s : Searcher) (bytes : List UInt8) (place : Nat) : Option (TagKind × Span) :=
  if place < bytes.length then
    match (bytes.drop place).findIdx? fun b => s.starts.contains b with
    | none => none
    | some skipped =>
      match s.openers.find? (standsAt bytes (place + skipped)) with
      | some (kind, mark) => some (kind, ⟨place + skipped, place + skipped + mark.length⟩)
      | none => findAt s bytes (place + skipped + 1)
  else none
termination_by bytes.length - place

end Searcher

def Markup.searcher (m : Markup) : Searcher :=
  let openers := m.openers.map fun o => (o.kind, o.mark.flatMap String.utf8EncodeChar)
  ⟨openers, (openers.filterMap fun o => o.2.head?).mergeSort.eraseDups⟩

end Stencil

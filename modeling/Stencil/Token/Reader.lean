import Stencil.Token.Scan
/-!
# Reading tokens one at a time

`Token.Reader` gives out the tokens of a source call by call. Of two tokens that one step finds the
second waits for the next call. Behind the last token every call gives the end of input.
-/

namespace Stencil.Token

structure Reader where
  mode : Mode
  cursor : Cursor
  /-- The tokens that have been found and not been given out yet. -/
  waiting : List Token

namespace Reader

def start (source : String) : Reader := ⟨.text .nothing, .start source.toList, []⟩

/-- Takes a step. One that does not say how to go on leaves nothing of the source. -/
def advance (m : Markup) (r : Reader) : Reader :=
  let found := step m r.mode r.cursor
  match found.next with
  | some (mode, c) => ⟨mode, c, found.tokens⟩
  | none => ⟨r.mode, r.cursor.past r.cursor.rest [], found.tokens⟩

def give (r : Reader) : Token × Reader :=
  match r.waiting with
  | t :: rest => (t, { r with waiting := rest })
  | [] => (.atEnd r.cursor.place, r)

def next (m : Markup) (r : Reader) : Token × Reader :=
  if r.waiting.isEmpty then (r.advance m).give else r.give

/-- The token that the call with a number gives, where the calls are counted from zero. -/
def nth (m : Markup) : Nat → Reader → Token
  | 0, r => (r.next m).1
  | n + 1, r => nth m n (r.next m).2

end Reader

end Stencil.Token

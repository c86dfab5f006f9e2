import Stencil.Text.Span
/-!
# Output

Where rendered text goes: into memory, or into a sink. A sink can have a limit. Text that is longer than
the room left is taken up to the limit, and the rest is refused with an error of the sink. Whoever writes
hears only that it failed. The error of the sink is kept beside it.
-/

namespace Stencil

structure Sink where
  text : String
  /-- The first bytes of a character that the limit cuts. -/
  torn : List UInt8
  /-- The bytes that still fit, if there is a limit. -/
  room : Option Nat
  /-- The error of the sink when it takes no more. -/
  refusal : String

namespace Sink

def unlimited (refusal : String) : Sink := ⟨"", [], none, refusal⟩

def limited (bytes : Nat) (refusal : String) : Sink := ⟨"", [], some bytes, refusal⟩

def bytes (k : Sink) : List UInt8 := k.text.toUTF8.toList ++ k.torn

/-- The characters that fit into some bytes, and the bytes left over for the next one. -/
def fitting : Nat → List Char → List Char × Nat
  | room, [] => ([], room)
  | room, c :: cs =>
    if c.utf8Size ≤ room then
      let (taken, left) := fitting (room - c.utf8Size) cs
      (c :: taken, left)
    else ([], room)

def firstBytes (cs : List Char) (n left : Nat) : List UInt8 :=
  match cs[n]? with
  | some c => (String.utf8EncodeChar c).take left
  | none => []

/-- Whether all of the text was taken, and the sink after it. -/
def write (k : Sink) (s : String) : Bool × Sink :=
  match k.room with
  | none => (true, { k with text := k.text ++ s })
  | some room =>
    if s.utf8ByteSize ≤ room then
      (true, { k with text := k.text ++ s, room := some (room - s.utf8ByteSize) })
    else
      let cs := s.toList
      let (taken, left) := fitting room cs
      (false, ⟨k.text ++ String.ofList taken, firstBytes cs taken.length left, some 0, k.refusal⟩)

/-- What arrived, as text. A torn character shows as a replacement character. -/
def shown (k : Sink) : String := if k.torn.isEmpty then k.text else k.text.push '\ufffd'

end Sink

inductive Output where
  | memory (text : String)
  /-- A sink, with its error if it has refused something. -/
  | sink (k : Sink) (failure : Option String)

namespace Output

def write : Output → String → Bool × Output
  | .memory text, s => (true, .memory (text ++ s))
  | .sink k failure, s =>
    match k.write s with
    | (true, k) => (true, .sink k failure)
    | (false, k) => (false, .sink k (some k.refusal))

def failure? : Output → Option String
  | .memory _ => none
  | .sink _ failure => failure

/-- What has arrived. Memory is a sink that has room for everything. -/
def taken : Output → Sink
  | .memory text => ⟨text, [], none, ""⟩
  | .sink k _ => k

end Output

end Stencil

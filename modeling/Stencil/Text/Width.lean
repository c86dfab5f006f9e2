import Stencil.Text.Width.Sequence
/-!
# Display width

How many columns a text takes. Most characters take one, East Asian ones take two, marks none, and
a sequence that is shown as one emoji or as one letter takes the columns of one. All of this follows
unicode-width 0.1.14, for Unicode 15.1.
-/

namespace Stencil.Width

inductive Style
  | text
  | emoji
  deriving DecidableEq

structure Context where
  follower : Follower
  style : Option Style := none

/-- A selector hides what follows it, but for a ligature, and for a joiner where an emoji is asked
for. -/
def Follower.select (f : Follower) (s : Style) : Context :=
  match f, s with
  | .ligature .., _ | .joined, .emoji | .joinedKeycap, .emoji => ⟨f, some s⟩
  | _, _ => ⟨.other, some s⟩

def Context.unselected (k : Context) : Follower :=
  match k.follower, k.style with
  | f, none => f
  | .ligature e tied, some _ => .ligature e tied
  | _, some _ => .other

/-- The columns of a character before a follower, and what the character before it meets. -/
def place (c : Char) (f : Follower) : Int × Context :=
  if isPlain c then
    if c = '\n' then (1, ⟨.lineFeed, none⟩)
    else if c = '\r' && f = .lineFeed then (0, ⟨.other, none⟩)
    else (1, ⟨.other, none⟩)
  else if c = emojiSelector then (0, f.select .emoji)
  else if c = textSelector then (0, f.select .text)
  else match f.rule c with
    | some (n, g) => (n, ⟨g, none⟩)
    | none => (char c, ⟨.ofChar c, none⟩)

/-- The columns of a character in its context. A joined emoji takes none of its own. -/
def columns (c : Char) (k : Context) : Int × Context :=
  if k.style = some .emoji && isStyled c then
    (if k.follower ∈ [.joined, .joinedKeycap] then 0 else 2, ⟨.emoji, none⟩)
  else if k.style = some .text && isTextual c then (1, ⟨.other, none⟩)
  else place c k.unselected

def measure (cs : List Char) : Int × Context :=
  cs.foldr (fun c (n, k) => let (own, k) := columns c k; (n + own, k)) (0, ⟨.other, none⟩)

def text (cs : List Char) : Nat := (measure cs).1.toNat

end Stencil.Width

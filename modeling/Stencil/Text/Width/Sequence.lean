import Stencil.Text.Width.Char
/-!
# Sequences of characters

Some characters take other columns beside each other than alone: emoji that are joined to one, and
letters that are written as one. A sequence is read from its end, so that each character is judged
by what follows it.
-/

namespace Stencil.Width

/-- The end of a ligature, as far as it has been read. -/
inductive Ending
  | alef
  | lamed
  | ya
  /-- A vowel sign, a joiner and a ya. -/
  | signYa
  | tifinagh
  /-- The consonant joiner of Tifinagh and a consonant. -/
  | boundTifinagh
  | tone
  | orkhonI
  | subscribed
  deriving DecidableEq

inductive Follower
  | other
  | lineFeed
  | skinTone
  /-- One letter of a flag. -/
  | flagLetter
  /-- Several letters of flags. -/
  | flagLetters
  | emoji
  /-- A joiner and an emoji. -/
  | joined
  /-- A keycap before those. -/
  | joinedKeycap
  /-- A flag letter before a joiner and an emoji. -/
  | joinedFlagLetter
  /-- Whole flags before them. -/
  | joinedFlags
  /-- Whole flags before them, and a letter before the flags. -/
  | joinedLetterFlags
  /-- So many tag letters and the end of the tags before them. -/
  | joinedTagLetters (count : Nat)
  /-- So many tag digits, first of all. -/
  | joinedTagDigits (count : Nat)
  /-- The end of a ligature, and whether a joiner stands before it. -/
  | ligature (ending : Ending) (tied : Bool)
  deriving DecidableEq

def Ending.ofChar? (c : Char) : Option Ending :=
  if isAlef c then some .alef
  else if c = '\u05dc' then some .lamed
  else if c = '\u1a10' then some .ya
  else if isTifinagh c then some .tifinagh
  else if c = '\ua4fc' || c = '\ua4fd' then some .tone
  else if c.toNat = 0x10C03 then some .orkhonI
  else if isSubscribed c then some .subscribed
  else none

def Follower.ofChar (c : Char) : Follower :=
  if isSkinTone c then .skinTone
  else if isFlagLetter c then .flagLetter
  else if isEmoji c then .emoji
  else match Ending.ofChar? c with
    | some e => .ligature e false
    | none => .other

/-! ## Ligatures

A rule gives the columns that a character adds to those of what follows it, which can be fewer than
none, and what it is to the character before it.
-/

/-- Alef is joined to lam through vowel signs, but not through a joiner. -/
def ligatureAt (e : Ending) (tied : Bool) (c : Char) : Option (Int × Follower) :=
  if e = .alef then
    if isLam c then some (0, .other)
    else if isTransparent c then some (0, .ligature .alef tied)
    else none
  else if c = joiner then some (0, .ligature e true)
  else if isIgnorableMark c then some (0, .ligature e tied)
  else match e with
    | .lamed => if tied && c = '\u05d0' then some (0, .other) else none
    | .ya => if tied && c = '\u1a17' then some (0, .ligature .signYa false) else none
    | .signYa => if c = '\u1a15' then some (0, .other) else none
    | .tifinagh =>
      if c = '\u2d7f' then some (1, .ligature .boundTifinagh false)
      else if tied && isTifinagh c then some (0, .other)
      else none
    | .boundTifinagh => if isTifinagh c then some (-1, .other) else none
    | .tone => if isWithin 0xA4F8 0xA4FB c then some (0, .other) else none
    | .orkhonI => if tied && c.toNat = 0x10C32 then some (0, .other) else none
    | .subscribed => if c = '\u17d2' then some (-1, .other) else none
    | .alef => none

/-! ## Emoji -/

/-- Before a joiner and an emoji, an emoji takes no columns. -/
def joinedAt (c : Char) : Option (Int × Follower) :=
  if c = keycap then some (0, .joinedKeycap)
  else if isFlagLetter c then some (1, .joinedFlagLetter)
  else if isSkinTone c then some (0, .skinTone)
  else if c = tagEnd then some (0, .joinedTagLetters 0)
  else if isEmoji c then some (0, .emoji)
  else none

/-- Letters of flags pair up from the first one. An odd one before a joiner is no part of a flag, and
then the last flag is not joined. -/
def flagAt (f : Follower) (c : Char) : Option (Int × Follower) :=
  if isFlagLetter c then
    match f with
    | .joinedFlags => some (3, .joinedLetterFlags)
    | .joinedFlagLetter | .joinedLetterFlags => some (-1, .joinedFlags)
    | _ => some (1, .flagLetters)
  else if c = joiner && f ∈ [.flagLetters, .joinedFlags, .joinedLetterFlags] then some (0, .joined)
  else none

/-- A flag of a region is a black flag with the code of the region in tags. -/
def tagAt (f : Follower) (c : Char) : Option (Int × Follower) :=
  match f with
  | .joinedTagLetters n =>
    if isTagLetter c && n < 6 then some (0, .joinedTagLetters (n + 1))
    else if isTagDigit c && n < 5 then some (0, .joinedTagDigits 1)
    else if c = blackFlag && 3 ≤ n then some (0, .emoji)
    else none
  | .joinedTagDigits n =>
    if isTagDigit c && n < 3 then some (0, .joinedTagDigits (n + 1))
    else if c = blackFlag && n = 3 then some (0, .emoji)
    else none
  | _ => none

def Follower.rule (f : Follower) (c : Char) : Option (Int × Follower) :=
  match f with
  | .ligature e tied => ligatureAt e tied c
  | .skinTone =>
    if takesSkinTone c then some (0, .emoji) else if c = joiner then some (0, .joined) else none
  | .emoji => if c = joiner then some (0, .joined) else none
  | .joined => joinedAt c
  | .flagLetter | .flagLetters | .joinedFlagLetter | .joinedFlags | .joinedLetterFlags => flagAt f c
  | .joinedTagLetters _ | .joinedTagDigits _ => tagAt f c
  | .other | .lineFeed | .joinedKeycap => none

end Stencil.Width

import Stencil.Text.Ranges
import Stencil.Text.Width.Table
/-!
# Width of a character

How many columns a character takes by itself, and the classes that sequences are made of.
-/

namespace Stencil.Width

def textSelector : Char := '\ufe0e'

def emojiSelector : Char := '\ufe0f'

def joiner : Char := '\u200d'

def keycap : Char := '\u20e3'

def isWithin (first last : Nat) (c : Char) : Bool := first ≤ c.toNat && c.toNat ≤ last

/-- ASCII, the controls after it, and the blank after those. -/
def isPlain (c : Char) : Bool := c.toNat ≤ 0xA0

def isZero (c : Char) : Bool := inRanges zeroRanges c

def isWide (c : Char) : Bool := inRanges wideRanges c

/-- Controls have a column as well. Two signs of Khmer stand for several letters. -/
def char (c : Char) : Nat :=
  if isPlain c then 1
  else if c = '\u17a4' then 2
  else if c = '\u17d8' then 3
  else if isZero c then 0
  else if isWide c then 2
  else 1

/-! ## Emoji -/

def isSkinTone : Char → Bool := isWithin 0x1F3FB 0x1F3FF

def isFlagLetter : Char → Bool := isWithin 0x1F1E6 0x1F1FF

def isTagDigit : Char → Bool := isWithin 0xE0030 0xE0039

def isTagLetter : Char → Bool := isWithin 0xE0061 0xE007A

def tagEnd : Char := Char.ofNat 0xE007F

def blackFlag : Char := Char.ofNat 0x1F3F4

/-- Shown as an emoji where no selector says otherwise. -/
def isEmoji (c : Char) : Bool := inRanges emojiRanges c

/-- Shown as an emoji where the emoji selector follows. -/
def isStyled (c : Char) : Bool := inRanges styledRanges c

/-- Takes one column where the text selector follows. Ideographs in a square keep their two. -/
def isTextual (c : Char) : Bool := isEmoji c && isStyled c && !isWithin 0x1F200 0x1F2FF c

def takesSkinTone (c : Char) : Bool := inRanges modifiedRanges c

/-! ## Letters -/

/-- Letters that an alef closes a ligature with. -/
def isLam (c : Char) : Bool :=
  c = '\u0644' || isWithin 0x6B5 0x6B8 c || c = '\u076a' || c = '\u08a6' || c = '\u08c7'

def isAlef (c : Char) : Bool :=
  isWithin 0x622 0x623 c || c = '\u0625' || c = '\u0627' || isWithin 0x671 0x673 c ||
    c = '\u0675' || isWithin 0x773 0x774 c || isWithin 0x870 0x882 c

def isSubscribed (c : Char) : Bool :=
  isWithin 0x1780 0x1782 c || isWithin 0x1784 0x1787 c || isWithin 0x1789 0x178C c ||
    isWithin 0x178E 0x1793 c || isWithin 0x1795 0x1798 c || isWithin 0x179B 0x179D c ||
    c = '\u17a0' || c = '\u17a2' || c = '\u17a7' || isWithin 0x17AB 0x17AC c || c = '\u17af'

def isTifinagh (c : Char) : Bool := isWithin 0x2D31 0x2D65 c || c = '\u2d6f'

/-- Leaves the letters before and after it joined, as vowel signs do. -/
def isTransparent (c : Char) : Bool := !isPlain c && isZero c && !inRanges partingRanges c

/-- Marks that cannot be seen. They do not part the letters of a ligature. -/
def isIgnorableMark (c : Char) : Bool :=
  c = '\u034f' || isWithin 0x17B4 0x17B5 c || isWithin 0x180B 0x180D c || c = '\u180f' ||
    isWithin 0xFE00 0xFE0F c || isWithin 0xE0100 0xE01EF c

end Stencil.Width

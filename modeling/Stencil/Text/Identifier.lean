import Stencil.Text.Ranges
import Stencil.Text.Identifier.Table
/-!
# Identifiers

An identifier begins with a letter, `_`, `@` or `$`. Digits, `.`, `/` and `-` may follow, so a whole
path is one identifier. The letters are those of unicode-ident 1.0.27, for Unicode 18.
-/

namespace Stencil.Identifier

def isAscii (c : Char) : Bool := c.toNat < 0x80

def isStart (c : Char) : Bool :=
  c == '_' || c == '@' || c == '$' || c.isAlpha || (!isAscii c && inRanges startRanges c)

def isLetter (c : Char) : Bool :=
  c == '_' || c.isAlphanum ||
    (!isAscii c && (inRanges startRanges c || inRanges continueRanges c))

def isPart (c : Char) : Bool := c == '.' || c == '/' || c == '-' || isLetter c

end Stencil.Identifier

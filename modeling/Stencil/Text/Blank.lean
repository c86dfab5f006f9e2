/-!
# Blanks

The three classes of white space. They differ in the characters past the ones that everyone knows.
-/

namespace Stencil.Blank

def isInline (c : Char) : Bool := c == ' ' || c == '\t'

/-- The blanks of ASCII, with the form feed and without the vertical tab. -/
def isAscii (c : Char) : Bool := c == ' ' || c == '\t' || c == '\n' || c == '\r' || c == '\x0c'

/-- The property `White_Space`. -/
def isAny (c : Char) : Bool :=
  let n := c.toNat
  (9 ≤ n && n ≤ 13) || n == 0x20 || n == 0x85 || n == 0xA0 || n == 0x1680 ||
    (0x2000 ≤ n && n ≤ 0x200A) || n == 0x2028 || n == 0x2029 || n == 0x202F || n == 0x205F ||
    n == 0x3000

def trimStart (cs : List Char) : List Char := cs.dropWhile isAny

def dropEnd (p : Char → Bool) (cs : List Char) : List Char := (cs.reverse.dropWhile p).reverse

def trim (cs : List Char) : List Char := dropEnd isAny (trimStart cs)

end Stencil.Blank

import Stencil.Text.Ranges
import Stencil.Text.Quoted.Table
/-!
# Quoted text

Text between quotes on one line, where characters that cannot be seen are spelled out. Those past ASCII
are listed as of Unicode 17.
-/

namespace Stencil.Quoted

def isHidden (c : Char) : Bool :=
  c < ' ' || c.toNat = 0x7f || (0x80 ≤ c.toNat && inRanges hiddenRanges c)

def escape (c : Char) : List Char :=
  if c = '\x00' then ['\\', '0']
  else if c = '\t' then ['\\', 't']
  else if c = '\r' then ['\\', 'r']
  else if c = '\n' then ['\\', 'n']
  else if c = '"' then ['\\', '"']
  else if c = '\\' then ['\\', '\\']
  else if isHidden c then ['\\', 'u', '{'] ++ Nat.toDigits 16 c.toNat ++ ['}']
  else [c]

def text (s : String) : String := String.ofList ('"' :: s.toList.flatMap escape ++ ['"'])

end Stencil.Quoted

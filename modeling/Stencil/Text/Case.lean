import Stencil.Text.Ranges
import Stencil.Text.Case.Table
/-!
# Case

A letter can map to several, as `ß` to `SS`. Only the sigma looks at its neighbours: it takes its
final form after a letter, unless a letter follows. The mappings are those of Unicode 17.
-/

namespace Stencil.Letter

def CaseRun.covers (r : CaseRun) (n : Nat) : Bool :=
  r.first ≤ n && n ≤ r.last && (n - r.first) % r.stride == 0

def mapped (runs : List CaseRun) (long : List (Nat × List Nat)) (c : Char) : List Char :=
  let n := c.toNat
  match long.lookup n with
  | some ns => ns.map Char.ofNat
  | none =>
    match runs.find? (·.covers n) with
    | some r => [Char.ofNat (n + r.shift).toNat]
    | none => [c]

def upper (c : Char) : List Char :=
  if c.toNat < 0x80 then [c.toUpper] else mapped upperRuns upperLong c

def lower (c : Char) : List Char :=
  if c.toNat < 0x80 then [c.toLower] else mapped lowerRuns lowerLong c

def isCased (c : Char) : Bool :=
  if c.toNat < 0x80 then c.isAlpha else inRanges casedRanges c

/-- The ASCII ones are apostrophe, full stop, colon, circumflex and backtick. -/
def isCaseIgnorable (c : Char) : Bool :=
  if c.toNat < 0x80 then [0x27, 0x2E, 0x3A, 0x5E, 0x60].contains c.toNat
  else inRanges caseIgnorableRanges c

def meetsCased (cs : List Char) : Bool :=
  match cs.dropWhile isCaseIgnorable with
  | c :: _ => isCased c
  | [] => false

/-- Lower case of a text, given what stands before it in reverse. -/
def lowerAfter (before : List Char) : List Char → List Char
  | [] => []
  | c :: rest =>
    let mapped :=
      if c = 'Σ' then
        if meetsCased before && !meetsCased rest then ['ς'] else ['σ']
      else lower c
    mapped ++ lowerAfter (c :: before) rest

def upperText (s : String) : String := String.ofList (s.toList.flatMap upper)

def lowerText (s : String) : String := String.ofList (lowerAfter [] s.toList)

/-- Upper case for the first character, and lower case for each of the others by itself. -/
def capitalText (s : String) : String :=
  match s.toList with
  | [] => ""
  | c :: rest => String.ofList (upper c ++ rest.flatMap lower)

end Stencil.Letter

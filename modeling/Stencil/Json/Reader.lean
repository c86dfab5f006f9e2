import Stencil.Json.Numeral
import Stencil.Value
/-!
# Reading JSON

The reader takes exactly the texts of the JSON grammar, up to a nesting of 127 arrays and objects.
Of two entries with the same key the later one counts. These are the rules of serde_json 1.0 without
optional features.
-/

namespace Stencil.Json

def isBlank (c : Char) : Bool := c == ' ' || c == '\t' || c == '\n' || c == '\r'

def skip (cs : List Char) : List Char := cs.dropWhile isBlank

/-! ## Strings -/

def hexDigit? (c : Char) : Option Nat :=
  if '0' ≤ c ∧ c ≤ '9' then some (c.toNat - '0'.toNat)
  else if 'a' ≤ c ∧ c ≤ 'f' then some (c.toNat - 'a'.toNat + 10)
  else if 'A' ≤ c ∧ c ≤ 'F' then some (c.toNat - 'A'.toNat + 10)
  else none

def hex4? (a b c d : Char) : Option Nat := do
  return ((← hexDigit? a) * 16 + (← hexDigit? b)) * 256 + ((← hexDigit? c) * 16 + (← hexDigit? d))

def isHigh (n : Nat) : Bool := 0xD800 ≤ n && n < 0xDC00

def isLow (n : Nat) : Bool := 0xDC00 ≤ n && n < 0xE000

def pairChar (high low : Nat) : Char :=
  Char.ofNat (0x10000 + (high - 0xD800) * 0x400 + (low - 0xDC00))

def escapeChar? : Char → Option Char
  | '"' => some '"'
  | '\\' => some '\\'
  | '/' => some '/'
  | 'b' => some '\x08'
  | 'f' => some '\x0c'
  | 'n' => some '\n'
  | 'r' => some '\r'
  | 't' => some '\t'
  | _ => none

/-- The characters up to the closing quote. Each step eats at least one character, so the length of
the text is steps enough. -/
def stringBody? : Nat → List Char → Option (List Char × List Char)
  | 0, _ => none
  | _ + 1, [] => none
  | _ + 1, '"' :: rest => some ([], rest)
  | n + 1, '\\' :: 'u' :: a :: b :: c :: d :: rest => do
    let unit ← hex4? a b c d
    if isHigh unit then
      match rest with
      | '\\' :: 'u' :: e :: f :: g :: h :: rest =>
        let low ← hex4? e f g h
        if isLow low then
          let (cs, rest) ← stringBody? n rest
          return (pairChar unit low :: cs, rest)
        else none
      | _ => none
    else if isLow unit then none
    else
      let (cs, rest) ← stringBody? n rest
      return (Char.ofNat unit :: cs, rest)
  | n + 1, '\\' :: c :: rest => do
    let c ← escapeChar? c
    let (cs, rest) ← stringBody? n rest
    return (c :: cs, rest)
  | n + 1, c :: rest =>
    if c < ' ' || c == '\\' then none
    else do
      let (cs, rest) ← stringBody? n rest
      return (c :: cs, rest)

def string? (cs : List Char) : Option (String × List Char) :=
  match cs with
  | '"' :: rest => (stringBody? (rest.length + 1) rest).map fun (s, rest) => (String.ofList s, rest)
  | _ => none

/-! ## Values -/

def number? (cs : List Char) : Option (Value × List Char) := do
  let (n, rest) ← Numeral.read? cs
  return (.number (← n.toNumber?), rest)

mutual

/-- One value. `levels` are the arrays and objects that may still be opened. -/
def value? : Nat → Nat → List Char → Option (Value × List Char)
  | 0, _, _ => none
  | n + 1, levels, cs =>
    match skip cs with
    | 'n' :: 'u' :: 'l' :: 'l' :: rest => some (.null, rest)
    | 't' :: 'r' :: 'u' :: 'e' :: rest => some (.bool true, rest)
    | 'f' :: 'a' :: 'l' :: 's' :: 'e' :: rest => some (.bool false, rest)
    | '"' :: rest => (string? ('"' :: rest)).map fun (s, rest) => (.string s, rest)
    | '[' :: rest =>
      if levels = 0 then none
      else match skip rest with
        | ']' :: rest => some (.array [], rest)
        | _ => (items? n (levels - 1) rest).map fun (vs, rest) => (.array vs, rest)
    | '{' :: rest =>
      if levels = 0 then none
      else match skip rest with
        | '}' :: rest => some (.object [], rest)
        | _ => (fields? n (levels - 1) [] rest).map fun (fs, rest) => (.object fs, rest)
    | cs => number? cs

def items? : Nat → Nat → List Char → Option (List Value × List Char)
  | 0, _, _ => none
  | n + 1, levels, cs => do
    let (v, rest) ← value? n levels cs
    match skip rest with
    | ',' :: rest =>
      let (vs, rest) ← items? n levels rest
      return (v :: vs, rest)
    | ']' :: rest => return ([v], rest)
    | _ => none

def fields? : Nat → Nat → Dict Value → List Char → Option (Dict Value × List Char)
  | 0, _, _, _ => none
  | n + 1, levels, found, cs => do
    let (key, rest) ← string? (skip cs)
    match skip rest with
    | ':' :: rest =>
      let (v, rest) ← value? n levels rest
      let found := Dict.insert found key v
      match skip rest with
      | ',' :: rest => fields? n levels found rest
      | '}' :: rest => return (found, rest)
      | _ => none
    | _ => none

end

def read? (s : String) : Option Value :=
  let cs := s.toList
  match value? (2 * cs.length + 2) 127 cs with
  | some (v, rest) => if (skip rest).isEmpty then some v else none
  | none => none

end Stencil.Json

import Stencil.Value
/-!
# Writing JSON

The compact text of a value: no blanks, and an escape only where the grammar asks for one.
-/

namespace Stencil.Json

def hexChar (n : Nat) : Char := if n < 10 then Char.ofNat ('0'.toNat + n) else Char.ofNat ('a'.toNat + n - 10)

def escape (c : Char) : List Char :=
  if c = '"' then ['\\', '"']
  else if c = '\\' then ['\\', '\\']
  else if c = '\n' then ['\\', 'n']
  else if c = '\r' then ['\\', 'r']
  else if c = '\t' then ['\\', 't']
  else if c = '\x08' then ['\\', 'b']
  else if c = '\x0c' then ['\\', 'f']
  else if c < ' ' then ['\\', 'u', '0', '0', hexChar (c.toNat / 16), hexChar (c.toNat % 16)]
  else [c]

def quoted (s : String) : List Char := '"' :: s.toList.flatMap escape ++ ['"']

mutual

def text : Value → List Char
  | .null => "null".toList
  | .bool true => "true".toList
  | .bool false => "false".toList
  | .number n => n.text.toList
  | .string s => quoted s
  | .array items => '[' :: itemsText items ++ [']']
  | .object fields => '{' :: fieldsText fields ++ ['}']

def itemsText : List Value → List Char
  | [] => []
  | [v] => text v
  | v :: rest => text v ++ ',' :: itemsText rest

def fieldsText : List (String × Value) → List Char
  | [] => []
  | [(key, v)] => quoted key ++ ':' :: text v
  | (key, v) :: rest => quoted key ++ ':' :: text v ++ ',' :: fieldsText rest

end

end Stencil.Json

namespace Stencil.Value

/-- How a value appears in rendered output: strings as they are, null not at all, and everything
else as JSON. -/
def shown : Value → String
  | .null => ""
  | .string s => s
  | v => String.ofList (Json.text v)

end Stencil.Value

import Stencil.Keyword
import Stencil.Token
import Stencil.Value
/-!
# Faults

What can go wrong, as data. `Fault.message` is the one place that puts it into words. A fault does
not know where it happened: that is for `Error`.
-/

namespace Stencil

inductive ErrorKind where
  | parser | render | file | value | io
deriving DecidableEq

def ErrorKind.name : ErrorKind → String
  | .parser => "parser"
  | .render => "render"
  | .file => "file"
  | .value => "value"
  | .io => "io"

/-! ## What was asked for -/

inductive Wanted where
  | token (kind : Token.Kind)
  | keyword (word : Keyword)
  | expression
  | statement
  | piece

def Wanted.name : Wanted → String
  | .token kind => kind.name
  | .keyword word => s!"keyword `{word.text}`"
  | .expression => "expression"
  | .statement => "statement"
  | .piece => "raw template or tag"

inductive LiteralKind where
  | number | string | structured
deriving DecidableEq

def LiteralKind.name : LiteralKind → String
  | .number => "number"
  | .string => "string"
  | .structured => "literal"

inductive BlockKind where
  | cond | loop
deriving DecidableEq

def BlockKind.name : BlockKind → String
  | .cond => "if"
  | .loop => "for"

inductive Closer where
  | otherwise | otherwiseIf | endIf | endFor
deriving DecidableEq

def Closer.name : Closer → String
  | .otherwise => "else"
  | .otherwiseIf => "else if"
  | .endIf => "endif"
  | .endFor => "endfor"

inductive Shape where
  | bool | integer | number | string | array | object | arrayOrObject | collection
deriving DecidableEq

def Shape.name : Shape → String
  | .bool => "bool"
  | .integer => "integer"
  | .number => "number"
  | .string => "string"
  | .array => "array"
  | .object => "object"
  | .arrayOrObject => "array or object"
  | .collection => "array, object or string"

inductive Arith where
  | add | sub | mul | div | rem | pow
deriving DecidableEq

def Arith.symbol : Arith → String
  | .add => "+"
  | .sub => "-"
  | .mul => "*"
  | .div => "/"
  | .rem => "%"
  | .pow => "^"

inductive Numeric where
  | text (s : String)
  | kind (k : Value.Kind)

def Numeric.name : Numeric → String
  | .text s => s!"'{s}'"
  | .kind k => k.name

inductive FileTrouble where
  | missing | directory | notDirectory | badName | badText
deriving DecidableEq

def FileTrouble.message : FileTrouble → String
  | .missing => "No such file or directory (os error 2)"
  | .directory => "Is a directory (os error 21)"
  | .notDirectory => "Not a directory (os error 20)"
  | .badName => "file name contained an unexpected NUL byte"
  | .badText => "stream did not contain valid UTF-8"

/-! ## Faults -/

inductive Fault where
  -- Reading a template.
  | expected (what : Wanted) (found : Token.Kind)
  | keywordOperand (word : Keyword)
  | unknownStatement (word : String)
  | misplaced (closer : Closer)
  | unmatched (block : BlockKind)
  | invalidLiteral (what : LiteralKind)
  | wrongArity (function : String) (takes found : Nat)
  -- Names.
  | unknownVariable (name : String)
  | unknownFunction (name : String) (count : Nat)
  | unknownTemplate (name : String)
  | includeDepth (limit : Nat)
  -- Loops.
  | itemIntoTwo
  | entryIntoOne
  | notIterable (found : Value.Kind)
  -- Values.
  | divisionByZero
  | arithmetic (op : Arith) (left right : Value.Kind)
  | wrongValue (wanted : Shape) (found : Value.Kind)
  | wrongArgument (wanted : Shape) (found : Value.Kind)
  | missingArgument (index count : Nat)
  | outOfRange (n : Number)
  | outOfBounds (n : Number) (length : Nat)
  | unknownKey (key : String)
  | badIndex (found : Value.Kind)
  | badKey (found : Value.Kind)
  | notFloat (what : Numeric)
  | notInteger (what : Numeric)
  | badData
  -- The outside.
  | noLoader (path : String)
  | noLoaderForFile (path : String)
  | file (path : String) (why : FileTrouble)
  /-- Text could not be written, for whatever reason. -/
  | unformatted
  | unwritten (cause : String)
  /-- What cannot happen: a search for templates without an end. -/
  | broken
  | custom (kind : ErrorKind) (message : String)

namespace Fault

def kind : Fault → ErrorKind
  | .expected .. | .keywordOperand .. | .unknownStatement .. | .misplaced .. | .unmatched ..
  | .invalidLiteral .. | .wrongArity .. => .parser
  | .unknownVariable .. | .unknownFunction .. | .unknownTemplate .. | .includeDepth ..
  | .itemIntoTwo | .entryIntoOne | .notIterable .. | .divisionByZero | .wrongValue ..
  | .outOfBounds .. | .unknownKey .. | .broken => .render
  | .arithmetic .. | .wrongArgument .. | .missingArgument .. | .outOfRange .. | .badIndex ..
  | .badKey .. | .notFloat .. | .notInteger .. | .badData => .value
  | .noLoader .. | .noLoaderForFile .. | .file .. => .file
  | .unformatted | .unwritten _ => .io
  | .custom kind _ => kind

def message : Fault → String
  | .expected what found => s!"expected {what.name}, found {found.name}"
  | .keywordOperand word => s!"expected expression, found keyword `{word.text}`"
  | .unknownStatement word => s!"unknown statement `{word}`"
  | .misplaced closer => s!"unexpected `{closer.name}` block"
  | .unmatched block => s!"unmatched `{block.name}` block"
  | .invalidLiteral what => s!"invalid {what.name}"
  | .wrongArity function takes found =>
    s!"function `{function}` takes {takes} argument(s), found {found}"
  | .unknownVariable name => s!"variable '{name}' not found"
  | .unknownFunction name count => s!"function '{name}' ({count}) not found"
  | .unknownTemplate name => s!"template '{name}' not found"
  | .includeDepth limit => s!"reached maximum include depth ({limit})"
  | .itemIntoTwo => "cannot unpack array item into two variables"
  | .entryIntoOne => "cannot unpack object item into one variable"
  | .notIterable found => s!"expected iterable, found {found.name}"
  | .divisionByZero => "division by zero"
  | .arithmetic op left right => s!"cannot apply `{op.symbol}` to {left.name} and {right.name}"
  | .wrongValue wanted found => s!"expected {wanted.name}, found {found.name}"
  | .wrongArgument wanted found => s!"expected {wanted.name}, found {found.name}"
  | .missingArgument index count =>
    s!"missing argument {index + 1}, function called with {count} argument(s)"
  | .outOfRange n => s!"number {n.text} out of range for integer"
  | .outOfBounds n length => s!"index {n.text} out of bounds for array of length {length}"
  | .unknownKey key => s!"key '{key}' not found"
  | .badIndex found => s!"expected integer index, found {found.name}"
  | .badKey found => s!"expected string key, found {found.name}"
  | .notFloat what => s!"cannot convert {what.name} to float"
  | .notInteger what => s!"cannot convert {what.name} to integer"
  | .badData => "failed to serialize template data"
  | .noLoader path => s!"template '{path}' not found and no loader is configured"
  | .noLoaderForFile path => s!"cannot load '{path}', no loader is configured"
  | .file path _ => s!"failed accessing file at '{path}'"
  | .unformatted => "failed to format rendered output"
  | .unwritten _ => "failed to write rendered output"
  | .broken => "broken program"
  | .custom _ message => message

/-- What the fault was caused by, where that is a fault of somebody else. -/
def cause : Fault → Option String
  | .badData => some "key must be a string"
  | .file _ why => some why.message
  | .unformatted => some "an error occurred when formatting an argument"
  | .unwritten cause => some cause
  | _ => none

end Fault

end Stencil

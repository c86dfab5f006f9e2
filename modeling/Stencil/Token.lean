import Stencil.Markup
/-!
# Tokens

The pieces that a source is cut into: raw text, the marks of tags, and the words, literals and
signs inside of tags.
-/

namespace Stencil

namespace Token

inductive Kind where
  | text
  | opening (tag : TagKind)
  /-- The end of a tag. For a comment this is its body as well. -/
  | closing (tag : TagKind)
  | word | number | string
  | comma | colon
  | leftParen | rightParen | leftBracket | rightBracket | leftBrace | rightBrace
  | equal | notEqual | greater | greaterEqual | less | lessEqual
  | assign | plus | minus | times | slash | percent | caret
  | endOfInput
  | unknown
deriving DecidableEq

def Kind.name : Kind → String
  | .text => "raw template"
  | .opening .expr => "begin expression"
  | .opening .block => "begin block"
  | .opening .comment => "begin comment"
  | .opening .line => "begin line statement"
  | .closing .expr => "end expression"
  | .closing .block => "end block"
  | .closing .comment => "end comment"
  | .closing .line => "end of line statement"
  | .word => "identifier"
  | .number => "number"
  | .string => "string"
  | .comma => "comma"
  | .colon => "colon"
  | .leftParen => "`(`"
  | .rightParen => "`)`"
  | .leftBracket => "`[`"
  | .rightBracket => "`]`"
  | .leftBrace => "`\x7b`"
  | .rightBrace => "`\x7d`"
  | .equal => "`==`"
  | .notEqual => "`!=`"
  | .greater => "`>`"
  | .greaterEqual => "`>=`"
  | .less => "`<`"
  | .lessEqual => "`<=`"
  | .assign => "`=`"
  | .plus => "`+`"
  | .minus => "`-`"
  | .times => "`*`"
  | .slash => "`/`"
  | .percent => "`%`"
  | .caret => "`^`"
  | .endOfInput => "end of input"
  | .unknown => "unknown character"

/-- Whether a token can end an operand, so that a `-` after it is an operator. -/
def Kind.endsOperand : Kind → Bool
  | .word | .number | .string | .rightParen | .rightBracket | .rightBrace => true
  | _ => false

end Token

structure Word where
  text : String
  span : Span

structure Token where
  kind : Token.Kind
  text : String
  span : Span

namespace Token

def word (t : Token) : Word := ⟨t.text, t.span⟩

def atEnd (place : Nat) : Token := ⟨.endOfInput, "", .point place⟩

end Token

end Stencil

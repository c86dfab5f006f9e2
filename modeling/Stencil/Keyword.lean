/-!
# Keywords

Words with a meaning of their own. Each place of the grammar says which of them it takes.
-/

namespace Stencil

inductive Keyword where
  | ifWord | elseWord | endIf
  | forWord | inWord | endFor
  | includeWord | setWord
  | notWord | andWord | orWord
  | trueWord | falseWord | nullWord
deriving DecidableEq

namespace Keyword

def all : List Keyword :=
  [.ifWord, .elseWord, .endIf, .forWord, .inWord, .endFor, .includeWord, .setWord,
    .notWord, .andWord, .orWord, .trueWord, .falseWord, .nullWord]

def text : Keyword → String
  | .ifWord => "if"
  | .elseWord => "else"
  | .endIf => "endif"
  | .forWord => "for"
  | .inWord => "in"
  | .endFor => "endfor"
  | .includeWord => "include"
  | .setWord => "set"
  | .notWord => "not"
  | .andWord => "and"
  | .orWord => "or"
  | .trueWord => "true"
  | .falseWord => "false"
  | .nullWord => "null"

def ofText? (s : String) : Option Keyword := all.find? (·.text == s)

end Keyword

end Stencil

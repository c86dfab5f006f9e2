import Stencil.Text.Blank
import Stencil.Text.Identifier
import Stencil.Token
/-!
# Cutting a source into tokens

`Token.scan` reads the source from the left, outside of tags and inside of them by turns. It never
fails: a character that begins no token is a token of its own, and a tag that is not closed runs up
to the end.
-/

namespace Stencil

namespace Token

/-! ## Places -/

structure Cursor where
  place : Nat
  rest : List Char
  lineStart : Bool

namespace Cursor

def start (source : List Char) : Cursor := ⟨0, source, true⟩

def past (c : Cursor) (taken rest : List Char) : Cursor :=
  { place := c.place + byteSize taken
    rest := rest
    lineStart := match taken.getLast? with
      | some d => d == '\n'
      | none => c.lineStart }

def token (c : Cursor) (kind : Kind) (text : List Char) : Token :=
  ⟨kind, String.ofList text, ⟨c.place, c.place + byteSize text⟩⟩

end Cursor

/-! ## Text between tags -/

inductive Trim where
  | nothing
  /-- All blanks. -/
  | blanks
  /-- The rest of the line, if it is blank. -/
  | line
deriving DecidableEq

def Trim.split : Trim → List Char → List Char × List Char
  | .nothing, cs => ([], cs)
  | .blanks, cs => cs.span Blank.isAscii
  | .line, cs =>
    match cs.span Blank.isInline with
    | (lead, '\r' :: '\n' :: rest) => (lead ++ ['\r', '\n'], rest)
    | (lead, '\n' :: rest) => (lead ++ ['\n'], rest)
    | _ => ([], cs)

/-- Text without the blanks at its end, if these are all that its last line holds. -/
def stripLastLine (cs : List Char) : List Char :=
  let kept := Blank.dropEnd Blank.isInline cs
  match kept.getLast? with
  | none => kept
  | some c => if c = '\n' then kept else cs

/-- The sign right after an opening mark, and whether blanks before the tag are taken away. -/
def openingSign (m : Markup) (kind : TagKind) (after : List Char) : List Char × Bool :=
  let isBlock := kind = .block || kind = .comment
  match after with
  | '-' :: _ => if kind = .line then ([], false) else (['-'], true)
  | '+' :: _ => if isBlock then (['+'], false) else ([], false)
  | _ => ([], isBlock && m.stripBlocks)

/-! ## Words and literals -/

def stringRest : Bool → List Char → List Char × List Char
  | _, [] => ([], [])
  | true, c :: cs => let (taken, rest) := stringRest false cs; (c :: taken, rest)
  | false, c :: cs =>
    if c = '"' then ([c], cs)
    else let (taken, rest) := stringRest (c == '\\') cs; (c :: taken, rest)

/-- The rest of a number, given its last character. A sign belongs to it only after an `e`. -/
def numberRest : Char → List Char → List Char × List Char
  | _, [] => ([], [])
  | last, c :: cs =>
    if c.isDigit || c == '.' || c == 'e' || c == 'E' ||
        ((c == '+' || c == '-') && (last == 'e' || last == 'E')) then
      let (taken, rest) := numberRest c cs
      (c :: taken, rest)
    else ([], c :: cs)

/-- The rest of a word. A `-` right before the closing mark belongs to the mark. -/
def wordRest (closing : List Char) : List Char → List Char × List Char
  | [] => ([], [])
  | c :: cs =>
    if c = '-' && (dropMark? closing cs).isSome then ([], c :: cs)
    else if Identifier.isPart c then
      let (taken, rest) := wordRest closing cs
      (c :: taken, rest)
    else ([], c :: cs)

/-! ## Signs -/

def pairSign? : Char → Char → Option Kind
  | '>', '=' => some .greaterEqual
  | '<', '=' => some .lessEqual
  | '=', '=' => some .equal
  | '!', '=' => some .notEqual
  | _, _ => none

def sign? : Char → Option Kind
  | ',' => some .comma
  | ':' => some .colon
  | '(' => some .leftParen
  | ')' => some .rightParen
  | '[' => some .leftBracket
  | ']' => some .rightBracket
  | '{' => some .leftBrace
  | '}' => some .rightBrace
  | '>' => some .greater
  | '<' => some .less
  | '=' => some .assign
  | '+' => some .plus
  | '-' => some .minus
  | '*' => some .times
  | '/' => some .slash
  | '%' => some .percent
  | '^' => some .caret
  | _ => none

/-- A token that is neither a mark nor blank: its kind, its characters, and what follows. -/
structure Lexeme where
  kind : Kind
  taken : List Char
  rest : List Char

def Lexeme.extend (kind : Kind) (c : Char) (tail : List Char × List Char) : Lexeme :=
  ⟨kind, c :: tail.1, tail.2⟩

def startsWithDigit : List Char → Bool
  | c :: _ => c.isDigit
  | [] => false

def signLexeme (c : Char) (cs : List Char) : Lexeme :=
  match cs with
  | d :: rest =>
    match pairSign? c d with
    | some kind => ⟨kind, [c, d], rest⟩
    | none => ⟨(sign? c).getD .unknown, [c], cs⟩
  | [] => ⟨(sign? c).getD .unknown, [c], []⟩

def lexeme (closing : List Char) (afterOperand : Bool) (c : Char) (cs : List Char) : Lexeme :=
  if c = '"' then .extend .string c (stringRest false cs)
  else if c.isDigit then .extend .number c (numberRest c cs)
  else if c = '-' && !afterOperand && startsWithDigit cs then .extend .number c (numberRest c cs)
  else if Identifier.isStart c then .extend .word c (wordRest closing cs)
  else signLexeme c cs

/-! ## Inside of tags -/

inductive Ahead where
  | nothing
  /-- The closing mark, with a `-` in front if text after the tag is to be trimmed. -/
  | mark (trim : Bool) (taken rest : List Char)
  | lexeme (c : Char) (cs : List Char)

/-- Passes over blanks. The closing mark is looked for before a newline counts as a blank, so that
it can end a line statement. -/
def lookAhead (tag : TagKind) (closing : List Char) : List Char → List Char × Ahead
  | [] => ([], .nothing)
  | c :: cs =>
    if c = ' ' || c = '\t' || c = '\r' then
      let (blanks, found) := lookAhead tag closing cs
      (c :: blanks, found)
    else
      match dropMark? closing (c :: cs) with
      | some rest => ([], .mark false closing rest)
      | none =>
        match if c = '-' && tag ≠ .line then dropMark? closing cs else none with
        | some rest => ([], .mark true (c :: closing) rest)
        | none =>
          if c = '\n' then
            let (blanks, found) := lookAhead tag closing cs
            (c :: blanks, found)
          else ([], .lexeme c cs)

/-! ## The whole source -/

inductive Mode where
  | text (trim : Trim)
  | tag (opener : Opener) (afterOperand : Bool)

def trimAfter (m : Markup) (kind : TagKind) (trim : Bool) : Trim :=
  if trim then .blanks
  else if m.trimBlocks && (kind = .block || kind = .comment) then .line
  else .nothing

structure Step where
  tokens : List Token
  next : Option (Mode × Cursor)

def textStep (m : Markup) (trim : Trim) (c : Cursor) : Step :=
  let (skipped, rest) := trim.split c.rest
  let c := c.past skipped rest
  if rest.isEmpty then ⟨[], none⟩
  else
    match Opening.find? m.openers c.lineStart rest with
    | none => ⟨[c.token .text rest], none⟩
    | some found =>
      let (sign, strip) := openingSign m found.opener.kind found.after
      let kept := if strip then stripLastLine found.before else found.before
      let texts := if kept.isEmpty then [] else [c.token .text kept]
      let mark := found.opener.mark ++ sign
      let c := c.past found.before (mark ++ found.after.drop sign.length)
      ⟨texts ++ [c.token (.opening found.opener.kind) mark],
        some (.tag found.opener false, c.past mark (found.after.drop sign.length))⟩

/-- The body of a comment is one token with its closing mark. -/
def commentStep (m : Markup) (opener : Opener) (c : Cursor) : Step :=
  match splitAtMark? opener.closing c.rest with
  | none => ⟨[], none⟩
  | some (body, rest) =>
    let trim := body.getLast? == some '-'
    let taken := body ++ opener.closing
    ⟨[c.token (.closing .comment) taken],
      some (.text (trimAfter m .comment trim), c.past taken rest)⟩

def tagStep (m : Markup) (opener : Opener) (afterOperand : Bool) (c : Cursor) : Step :=
  let (blanks, ahead) := lookAhead opener.kind opener.closing c.rest
  match ahead with
  | .nothing => ⟨[], none⟩
  | .mark trim taken rest =>
    let c := c.past blanks (taken ++ rest)
    ⟨[c.token (.closing opener.kind) taken],
      some (.text (trimAfter m opener.kind trim), c.past taken rest)⟩
  | .lexeme d cs =>
    let c := c.past blanks (d :: cs)
    let found := lexeme opener.closing afterOperand d cs
    ⟨[c.token found.kind found.taken],
      some (.tag opener found.kind.endsOperand, c.past found.taken found.rest)⟩

def step (m : Markup) : Mode → Cursor → Step
  | .text trim, c => textStep m trim c
  | .tag opener afterOperand, c =>
    if opener.kind = .comment then commentStep m opener c else tagStep m opener afterOperand c

def steps (m : Markup) : Nat → Mode → Cursor → List Token
  | 0, _, _ => []
  | n + 1, mode, c =>
    let found := step m mode c
    match found.next with
    | none => found.tokens
    | some (mode, c) => found.tokens ++ steps m n mode c

/-- The tokens of a source. Every step eats a character, so there are no more steps than those. -/
def scan (m : Markup) (source : String) : List Token :=
  let cs := source.toList
  steps m (cs.length + 1) (.text .nothing) (.start cs)

end Token

end Stencil

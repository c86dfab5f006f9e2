import Stencil.Text.Span
/-!
# Markup

The marks that set tags apart from text. No mark is empty, which is what makes every search for one
move on. Of two marks that begin at the same place the longer one counts.
-/

namespace Stencil

inductive TagKind where
  | expr | block | comment | line
deriving DecidableEq

structure MarkPair where
  opening : String
  closing : String
  opening_ne : opening ≠ ""
  closing_ne : closing ≠ ""

/-- The mark in front of a line statement, which ends with its line. -/
structure LineMark where
  opening : String
  opening_ne : opening ≠ ""

inductive PathStyle where
  | dots | slashes
deriving DecidableEq

structure Markup where
  expr : Option MarkPair := none
  block : Option MarkPair := none
  comment : Option MarkPair := none
  line : Option LineMark := none
  /-- Whether a block or comment takes the newline after it away. -/
  trimBlocks : Bool := false
  /-- Whether a block or comment takes the blanks before it on its line away. -/
  stripBlocks : Bool := false
  paths : PathStyle := .dots

def MarkPair.of? (opening closing : String) : Option MarkPair :=
  if h : opening ≠ "" ∧ closing ≠ "" then some ⟨opening, closing, h.1, h.2⟩ else none

def LineMark.of? (opening : String) : Option LineMark :=
  if h : opening ≠ "" then some ⟨opening, h⟩ else none

def dropMark? : List Char → List Char → Option (List Char)
  | [], cs => some cs
  | _ :: _, [] => none
  | m :: mark, c :: cs => if m = c then dropMark? mark cs else none

/-! ## Openers -/

structure Opener where
  kind : TagKind
  mark : List Char
  closing : List Char

namespace Opener

def ofPair (kind : TagKind) (p : MarkPair) : Opener := ⟨kind, p.opening.toList, p.closing.toList⟩

def ofLine (l : LineMark) : Opener := ⟨.line, l.opening.toList, ['\n']⟩

def insert (o : Opener) : List Opener → List Opener
  | [] => [o]
  | p :: rest =>
    if byteSize p.mark ≤ byteSize o.mark then o :: p :: rest else p :: insert o rest

/-- What follows the mark, if it stands here. A line mark counts only where a line begins. -/
def at? (o : Opener) (lineStart : Bool) (cs : List Char) : Option (List Char) :=
  if o.kind = .line && !lineStart then none else dropMark? o.mark cs

end Opener

namespace Markup

/-- The openers in the order in which they are tried, the longest first. -/
def openers (m : Markup) : List Opener :=
  let listed := (m.expr.map (Opener.ofPair .expr)).toList ++
    (m.block.map (Opener.ofPair .block)).toList ++
    (m.comment.map (Opener.ofPair .comment)).toList ++ (m.line.map Opener.ofLine).toList
  listed.foldr Opener.insert []

def standardExpr : MarkPair := ⟨"\x7b\x7b", "\x7d\x7d", by decide, by decide⟩

def standardBlock : MarkPair := ⟨"\x7b%", "%\x7d", by decide, by decide⟩

def standardComment : MarkPair := ⟨"\x7b#", "#\x7d", by decide, by decide⟩

def standardLine : LineMark := ⟨"##", by decide⟩

def standard : Markup where
  expr := some standardExpr
  block := some standardBlock
  comment := some standardComment
  line := some standardLine

end Markup

/-! ## The next opener -/

structure Opening where
  before : List Char
  opener : Opener
  after : List Char

def Opening.find? (openers : List Opener) : Bool → List Char → Option Opening
  | _, [] => none
  | lineStart, c :: cs =>
    match openers.findSome? fun o => (o.at? lineStart (c :: cs)).map (o, ·) with
    | some (o, after) => some ⟨[], o, after⟩
    | none => (find? openers (c == '\n') cs).map fun f => { f with before := c :: f.before }

def splitAtMark? (mark : List Char) : List Char → Option (List Char × List Char)
  | [] => none
  | c :: cs =>
    match dropMark? mark (c :: cs) with
    | some after => some ([], after)
    | none => (splitAtMark? mark cs).map fun (before, after) => (c :: before, after)

/-! ## Paths -/

namespace PathStyle

def separator : PathStyle → Char
  | .dots => '.'
  | .slashes => '/'

/-- The parts between separators. There is one more part than there are separators. -/
def parts (sep : Char) : List Char → List (List Char)
  | [] => [[]]
  | c :: cs =>
    if c = sep then [] :: parts sep cs
    else match parts sep cs with
      | [] => [[c]]
      | p :: rest => (c :: p) :: rest

/-- The steps of a name. With slashes, those in front do not count. -/
def split (style : PathStyle) (name : String) : List String :=
  let cs := match style with
    | .dots => name.toList
    | .slashes => name.toList.dropWhile (· == '/')
  (parts style.separator cs).map String.ofList

end PathStyle

end Stencil

import Stencil.Grammar.Expr
/-!
# The grammar of tags

`Grammar.outline` reads the tokens of a whole template as its list of tags. A fault ends the reading.
The tags in front of it count all the same, because what they include is looked for first.
-/

namespace Stencil

/-- The tags that a source begins with, and what is wrong after them. -/
structure Outline where
  tags : List Tag
  fault : Option Reject

def Outline.cons (t : Option Tag) (o : Outline) : Outline := { o with tags := t.toList ++ o.tags }

namespace Grammar

/-! ## Statements -/

def binder (g : Grammar) (ts : List Token) : Except Reject (Read (Binder Word)) := do
  let (first, ts) ← g.expect .word ts
  if (g.head ts).kind = .comma then
    let (second, ts) ← g.expect .word ts.tail
    return (.pair first.word second.word, ts)
  else return (.item first.word, ts)

def stringLiteral (g : Grammar) (ts : List Token) : Except Reject (Read (String × Span)) := do
  let (t, ts) ← g.expect .string ts
  match Json.read? t.text with
  | some (.string s) => return ((s, t.span), ts)
  | _ => .error ⟨.invalidLiteral .string, t.span⟩

/-- The path of a name that is assigned to. Unlike in a name that is read, a slash in front counts. -/
def target (g : Grammar) (name : String) : List String :=
  (PathStyle.parts g.paths.separator name.toList).map String.ofList

abbrev Placed := Tag × List Open

def misplaced (closer : Closer) (span : Span) : Reject := ⟨.misplaced closer, span⟩

def ending (closer : Closer) (t : Tag) (span : Span) (opened : List Open) (ts : List Token) :
    Except Reject (Read Placed) :=
  match Opened.close? opened closer with
  | some opened => .ok ((t, opened), ts)
  | none => .error (misplaced closer span)

def elseStatement (g : Grammar) (span : Span) (opened : List Open) (ts : List Token) :
    Except Reject (Read Placed) :=
  if g.ahead .ifWord ts then
    match Opened.close? opened .otherwiseIf with
    | some opened => do
      let (test, ts) ← g.expr ts.tail
      return ((.otherwiseIf span test, opened), ts)
    | none => .error (misplaced .otherwiseIf span)
  else ending .otherwise (.otherwise span) span opened ts

def keywordStatement (g : Grammar) (word : Keyword) (t : Token) (opened : List Open)
    (ts : List Token) : Except Reject (Read Placed) :=
  match word with
  | .ifWord => do
    let (test, ts) ← g.expr ts
    return ((.cond test, .cond false :: opened), ts)
  | .elseWord => g.elseStatement t.span opened ts
  | .endIf => ending .endIf .endIf t.span opened ts
  | .forWord => do
    let (binder, ts) ← g.binder ts
    let (_, ts) ← g.expectKeyword .inWord ts
    let (source, ts) ← g.expr ts
    return ((.loop binder source, .loop :: opened), ts)
  | .endFor => ending .endFor (.endFor t.span) t.span opened ts
  | .includeWord => do
    let ((name, span), ts) ← g.stringLiteral ts
    return ((.inclusion name span (t.span.join span), opened), ts)
  | .setWord => do
    let (name, ts) ← g.expect .word ts
    let (_, ts) ← g.expect .assign ts
    let (value, ts) ← g.expr ts
    return ((.set (g.target name.text) value.expr (name.span.join value.span), opened), ts)
  | _ => .error ⟨.unknownStatement t.text, t.span⟩

def statement (g : Grammar) (opened : List Open) (ts : List Token) :
    Except Reject (Read Placed) := do
  let t := g.head ts
  if t.kind = .word then
    match keyword? t with
    | some word => g.keywordStatement word t opened ts.tail
    | none => .error ⟨.unknownStatement t.text, t.span⟩
  else g.reject .statement ts

/-! ## Tags -/

/-- What a tag leaves behind. Its end may be missing though the tag itself could be read. -/
structure Piece where
  tag : Option Tag
  opened : List Open
  after : Except Reject (List Token)

/-- The end of a tag. A line statement may end with the source. -/
def tagEnd (g : Grammar) (kind : TagKind) (ts : List Token) : Except Reject (List Token) :=
  let t := g.head ts
  if t.kind = .closing kind || kind = .line && t.kind = .endOfInput then .ok ts.tail
  else .error (unexpected (.token (.closing kind)) t)

def statementPiece (g : Grammar) (kind : TagKind) (opened : List Open) (ts : List Token) :
    Except Reject Piece := do
  let ((tag, opened), ts) ← g.statement opened ts
  return ⟨some tag, opened, g.tagEnd kind ts⟩

def piece (g : Grammar) (opened : List Open) (t : Token) (ts : List Token) :
    Except Reject Piece :=
  match t.kind with
  | .text => .ok ⟨some (.text t.text t.span), opened, .ok ts⟩
  | .opening .comment => .ok ⟨none, opened, g.tagEnd .comment ts⟩
  | .opening .expr => do
    let (e, ts) ← g.expr ts
    let (stop, ts) ← g.expect (.closing .expr) ts
    return ⟨some (.output e.expr (t.span.join stop.span)), opened, .ok ts⟩
  | .opening kind => g.statementPiece kind opened ts
  | _ => .error (unexpected .piece t)

def finish (g : Grammar) (opened : List Open) : Outline :=
  ⟨[], opened.head?.map fun o => ⟨.unmatched o.kind, .point g.stop⟩⟩

/-- Reads tags where some blocks are open. Each takes a token at least. -/
def outlineFrom (g : Grammar) : Nat → List Open → List Token → Outline
  | _, opened, [] => g.finish opened
  | 0, opened, _ => g.finish opened
  | n + 1, opened, t :: ts =>
    match g.piece opened t ts with
    | .error r => ⟨[], some r⟩
    | .ok p =>
      match p.after with
      | .error r => ⟨p.tag.toList, some r⟩
      | .ok ts => .cons p.tag (g.outlineFrom n p.opened ts)

def outline (g : Grammar) (ts : List Token) : Outline := g.outlineFrom ts.length [] ts

end Grammar

end Stencil

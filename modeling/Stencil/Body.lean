import Stencil.Tag
/-!
# The tree of a template

Each node holds what comes after it, so that a body is a list whose entries can hold bodies. An
`else if` is a conditional in the `else` part.
-/

namespace Stencil

inductive Body where
  | done
  | text (s : String) (span : Span) (rest : Body)
  | output (e : Expr) (span : Span) (rest : Body)
  | cond (test : Part) (yes rest : Body)
  | choice (test : Part) (yes : Body) (elseSpan : Span) (no rest : Body)
  | loop (binder : Binder Word) (source : Part) (body : Body) (endSpan : Span) (rest : Body)
  | inclusion (key : String) (span : Span) (rest : Body)
  | set (path : List String) (e : Expr) (span : Span) (rest : Body)

namespace Body

instance : Inhabited Body := ⟨.done⟩

/-! ## From the list of tags

The tags are taken from the last to the first. Every closing tag on the way begins a section, which
collects the tags in front of it up to the one that opens the block. -/

inductive Edge where
  | ending
  | endIf
  | otherwise (span : Span) (no : Body)
  | endFor (span : Span)

/-- The tags collected so far in front of an edge. -/
structure Section where
  body : Body
  edge : Edge

/-- A conditional whose first branch is `yes`, with the edge behind that branch. -/
def conditional (test : Part) (yes : Body) (edge : Edge) (rest : Body) : Body :=
  match edge with
  | .otherwise span no => .choice test yes span no rest
  | _ => .cond test yes rest

/-- Puts a tag in front of the innermost section. The tag that opens a block makes the section of
the block part of the one around it. -/
def addTag (t : Tag) (sections : List Section) : List Section :=
  match t, sections with
  | .text s span, ⟨b, edge⟩ :: rest => ⟨.text s span b, edge⟩ :: rest
  | .output e span, ⟨b, edge⟩ :: rest => ⟨.output e span b, edge⟩ :: rest
  | .inclusion key _ span, ⟨b, edge⟩ :: rest => ⟨.inclusion key span b, edge⟩ :: rest
  | .set path e span, ⟨b, edge⟩ :: rest => ⟨.set path e span b, edge⟩ :: rest
  | .endIf, rest => ⟨.done, .endIf⟩ :: rest
  | .endFor span, rest => ⟨.done, .endFor span⟩ :: rest
  | .otherwise span, ⟨no, _⟩ :: rest => ⟨.done, .otherwise span no⟩ :: rest
  | .otherwiseIf span test, ⟨yes, edge⟩ :: rest =>
    ⟨.done, .otherwise span (conditional test yes edge .done)⟩ :: rest
  | .cond test, ⟨yes, edge⟩ :: ⟨b, outer⟩ :: rest =>
    ⟨conditional test yes edge b, outer⟩ :: rest
  | .loop binder source, ⟨body, .endFor span⟩ :: ⟨b, outer⟩ :: rest =>
    ⟨.loop binder source body span b, outer⟩ :: rest
  | _, sections => sections

def ofTags (tags : List Tag) : Body :=
  match tags.foldr addTag [⟨.done, .ending⟩] with
  | s :: _ => s.body
  | [] => .done

end Body

end Stencil

import Stencil.Expr
/-!
# Tags

A template as the list of its tags, with the blocks not yet put together. `Opened` says which tags
can follow: it keeps the blocks that are open, the innermost first.
-/

namespace Stencil

/-- An expression and the span that it was read from, with the parentheses around it. -/
structure Part where
  expr : Expr
  span : Span

inductive Binder (ν : Type) where
  | item (name : ν)
  | pair (key value : ν)

def Binder.map (f : ν → μ) : Binder ν → Binder μ
  | .item name => .item (f name)
  | .pair key value => .pair (f key) (f value)

inductive Tag where
  | text (s : String) (span : Span)
  | output (e : Expr) (span : Span)
  | cond (test : Part)
  | otherwise (span : Span)
  | otherwiseIf (span : Span) (test : Part)
  | endIf
  | loop (binder : Binder Word) (source : Part)
  | endFor (span : Span)
  /-- Another template, by the name in the source or by the key that it was found under. -/
  | inclusion (target : String) (name span : Span)
  | set (path : List String) (e : Expr) (span : Span)

/-! ## Open blocks -/

/-- An open block, and whether its `else` has been seen. -/
inductive Open where
  | cond (hasElse : Bool)
  | loop
deriving DecidableEq

def Open.kind : Open → BlockKind
  | .cond _ => .cond
  | .loop => .loop

namespace Opened

def close? : List Open → Closer → Option (List Open)
  | .cond false :: rest, .otherwise => some (.cond true :: rest)
  | .cond false :: rest, .otherwiseIf => some (.cond false :: rest)
  | .cond _ :: rest, .endIf => some rest
  | .loop :: rest, .endFor => some rest
  | _, _ => none

/-- The blocks open after a tag, if it can stand here. -/
def step? (opened : List Open) : Tag → Option (List Open)
  | .cond _ => some (.cond false :: opened)
  | .loop _ _ => some (.loop :: opened)
  | .otherwise _ => close? opened .otherwise
  | .otherwiseIf _ _ => close? opened .otherwiseIf
  | .endIf => close? opened .endIf
  | .endFor _ => close? opened .endFor
  | _ => some opened

def run? : List Open → List Tag → Option (List Open)
  | opened, [] => some opened
  | opened, t :: ts => (step? opened t).bind (run? · ts)

end Opened

end Stencil

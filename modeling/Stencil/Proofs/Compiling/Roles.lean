import Stencil.Tag
/-!
# Balanced statements

What a sequence of statements means for blocks is the sequence of their roles. `Balanced` is the grammar
of the sequences whose blocks are all closed. The blocks that are open after some statements say what has
been read of each, so a sequence can be completed exactly if `Opened.walk?` gets to its end.
-/

namespace Stencil

inductive Role where
  | plain
  | opens (block : BlockKind)
  | closes (closer : Closer)
deriving DecidableEq

def Tag.role : Tag → Role
  | .cond _ => .opens .cond
  | .loop _ _ => .opens .loop
  | .otherwise _ => .closes .otherwise
  | .otherwiseIf _ _ => .closes .otherwiseIf
  | .endIf => .closes .endIf
  | .endFor _ => .closes .endFor
  | _ => .plain

def BlockKind.closer : BlockKind → Closer
  | .cond => .endIf
  | .loop => .endFor

mutual

/-- Statements whose blocks are all closed. -/
inductive Balanced : List Role → Prop
  | nil : Balanced []
  | plain {s : List Role} : Balanced s → Balanced (.plain :: s)
  | cond {hasElse : Bool} {v s : List Role} : Branches hasElse v → Balanced s →
    Balanced (.opens .cond :: (v ++ .closes .endIf :: s))
  | loop {v s : List Role} : Balanced v → Balanced s →
    Balanced (.opens .loop :: (v ++ .closes .endFor :: s))

/-- The branches of a conditional, and whether the last of them is that of its `else`. -/
inductive Branches : Bool → List Role → Prop
  | first {s : List Role} : Balanced s → Branches false s
  | otherwiseIf {v s : List Role} : Branches false v → Balanced s →
    Branches false (v ++ .closes .otherwiseIf :: s)
  | otherwise {v s : List Role} : Branches false v → Balanced s →
    Branches true (v ++ .closes .otherwise :: s)

end

/-- That more statements could make them balanced. -/
def Viable (s : List Role) : Prop := ∃ rest, Balanced (s ++ rest)

def Interior : BlockKind → List Role → Prop
  | .cond, v => ∃ hasElse, Branches hasElse v
  | .loop, v => Balanced v

theorem Balanced.append : ∀ {s s' : List Role}, Balanced s → Balanced s' → Balanced (s ++ s')
  | _, _, .nil, h' => h'
  | _, _, .plain hs, h' => .plain (hs.append h')
  | _, _, .cond hv hs, h' => by
    rw [List.cons_append, List.append_assoc, List.cons_append]
    exact .cond hv (hs.append h')
  | _, _, .loop hv hs, h' => by
    rw [List.cons_append, List.append_assoc, List.cons_append]
    exact .loop hv (hs.append h')

variable {s s' v : List Role} {opened opened' : List Open} {hasElse : Bool}

theorem Branches.append (h : Branches hasElse v) (hs : Balanced s) : Branches hasElse (v ++ s) := by
  cases h with
  | first hv => exact .first (hv.append hs)
  | otherwiseIf hv hlast =>
    rw [List.append_assoc, List.cons_append]
    exact .otherwiseIf hv (hlast.append hs)
  | otherwise hv hlast =>
    rw [List.append_assoc, List.cons_append]
    exact .otherwise hv (hlast.append hs)

namespace Opened

def place? (opened : List Open) : Role → Option (List Open)
  | .plain => some opened
  | .opens .cond => some (.cond false :: opened)
  | .opens .loop => some (.loop :: opened)
  | .closes closer => close? opened closer

theorem place?_eq_none {opened : List Open} {r : Role} :
    place? opened r = none ↔ ∃ closer, r = .closes closer ∧ close? opened closer = none := by
  cases r with
  | plain => simp [place?]
  | opens block => cases block <;> simp [place?]
  | closes closer => simp [place?]

def walk? : List Open → List Role → Option (List Open)
  | opened, [] => some opened
  | opened, r :: s => (place? opened r).bind (walk? · s)

theorem walk?_append (opened : List Open) (s s' : List Role) :
    walk? opened (s ++ s') = (walk? opened s).bind (walk? · s') := by
  induction s generalizing opened with
  | nil => rfl
  | cons r s ih => simp [walk?, ih, Option.bind_assoc]

end Opened

open Opened

mutual

theorem Balanced.walk : ∀ {s : List Role}, Balanced s → ∀ opened, walk? opened s = some opened
  | _, .nil, _ => rfl
  | _, .plain hs, opened => hs.walk opened
  | _, .cond hv hs, opened => by
    simp only [walk?, place?, Option.bind_some, walk?_append, hv.walk opened, close?]
    exact hs.walk opened
  | _, .loop hv hs, opened => by
    simp only [walk?, place?, Option.bind_some, walk?_append, hv.walk (.loop :: opened), close?]
    exact hs.walk opened

theorem Branches.walk : ∀ {hasElse : Bool} {v : List Role}, Branches hasElse v → ∀ opened,
    walk? (.cond false :: opened) v = some (.cond hasElse :: opened)
  | _, _, .first hs, opened => hs.walk (.cond false :: opened)
  | _, _, .otherwiseIf hv hs, opened => by
    simp only [walk?, place?, Option.bind_some, walk?_append, hv.walk opened, close?]
    exact hs.walk (.cond false :: opened)
  | _, _, .otherwise hv hs, opened => by
    simp only [walk?, place?, Option.bind_some, walk?_append, hv.walk opened, close?]
    exact hs.walk (.cond true :: opened)

end

/-! ## Open blocks -/

def Open.Holds : Open → List Role → Prop
  | .cond hasElse, v => Branches hasElse v
  | .loop, v => Balanced v

/-- The statements that have been read where some blocks are open, the innermost at their end. -/
inductive Unfinished : List Open → List Role → Prop
  | closed {s : List Role} : Balanced s → Unfinished [] s
  | inside {o : Open} {opened : List Open} {s v : List Role} : Unfinished opened s → o.Holds v →
    Unfinished (o :: opened) (s ++ .opens o.kind :: v)

theorem Open.Holds.interior {o : Open} (h : o.Holds v) : Interior o.kind v := by
  cases o with
  | cond hasElse => exact ⟨hasElse, h⟩
  | loop => exact h

theorem Open.Holds.block {o : Open} (h : o.Holds v) :
    Balanced (.opens o.kind :: (v ++ [.closes o.kind.closer])) := by
  cases o with
  | cond hasElse => exact .cond h .nil
  | loop => exact .loop h .nil

theorem Unfinished.append (h : Unfinished opened s) (hs' : Balanced s') :
    Unfinished opened (s ++ s') := by
  cases h with
  | closed hs => exact .closed (hs.append hs')
  | @inside o opened s v hs hv =>
    rw [List.append_assoc, List.cons_append]
    refine .inside hs ?_
    cases o with
    | cond hasElse => exact Branches.append hv hs'
    | loop => exact Balanced.append hv hs'

theorem Unfinished.close {o : Open} (h : Unfinished (o :: opened) s) :
    Unfinished opened (s ++ [.closes o.kind.closer]) := by
  cases h with
  | inside hs hv =>
    rw [List.append_assoc, List.cons_append]
    exact hs.append hv.block

theorem Unfinished.place (h : Unfinished opened s) {r : Role} (hr : place? opened r = some opened') :
    Unfinished opened' (s ++ [r]) := by
  cases r with
  | plain =>
    cases hr
    exact h.append (.plain .nil)
  | opens block =>
    cases block with
    | cond =>
      cases hr
      exact .inside (o := .cond false) h (.first .nil)
    | loop =>
      cases hr
      exact .inside (o := .loop) h .nil
  | closes closer =>
    -- Only the innermost block can be closed, or go on with another branch.
    cases h with
    | closed hs => cases closer <;> cases hr
    | @inside o opened s v hs hv =>
      cases o with
      | loop =>
        cases closer <;> cases hr
        exact (Unfinished.inside (o := .loop) hs hv).close
      | cond hasElse =>
        cases closer with
        | endFor => cases hasElse <;> cases hr
        | endIf =>
          obtain rfl : opened = opened' := by cases hasElse <;> cases hr <;> rfl
          exact (Unfinished.inside (o := .cond hasElse) hs hv).close
        | otherwise =>
          cases hasElse <;> cases hr
          rw [List.append_assoc, List.cons_append]
          exact .inside (o := .cond true) hs (.otherwise hv .nil)
        | otherwiseIf =>
          cases hasElse <;> cases hr
          rw [List.append_assoc, List.cons_append]
          exact .inside (o := .cond false) hs (.otherwiseIf hv .nil)

theorem Unfinished.ofWalk (h : Unfinished opened s) (hw : walk? opened s' = some opened') :
    Unfinished opened' (s ++ s') := by
  induction s' generalizing opened s with
  | nil =>
    cases hw
    rwa [List.append_nil]
  | cons r s' ih =>
    obtain ⟨opened₁, hr, hw⟩ := Option.bind_eq_some_iff.mp hw
    have hs' := ih (h.place hr) hw
    rwa [List.append_assoc] at hs'

def closers (blocks : List BlockKind) : List Role := blocks.map fun block => .closes block.closer

theorem Unfinished.completes (h : Unfinished opened s) :
    Balanced (s ++ closers (opened.map Open.kind)) := by
  induction opened generalizing s with
  | nil =>
    cases h with
    | closed hs => simpa [closers] using hs
  | cons o opened ih =>
    have hclose := ih h.close
    rwa [List.append_assoc] at hclose

theorem unfinished_of_walk (h : walk? [] s = some opened) : Unfinished opened s :=
  Unfinished.ofWalk (.closed .nil) h

theorem balanced_iff : Balanced s ↔ walk? [] s = some [] := by
  refine ⟨fun h => h.walk [], fun h => ?_⟩
  have hs := (unfinished_of_walk h).completes
  simpa [closers] using hs

theorem viable_iff : Viable s ↔ ∃ opened, walk? [] s = some opened := by
  constructor
  · rintro ⟨rest, h⟩
    have hwalk := h.walk []
    rw [walk?_append] at hwalk
    obtain ⟨opened, hs, -⟩ := Option.bind_eq_some_iff.mp hwalk
    exact ⟨opened, hs⟩
  · rintro ⟨opened, h⟩
    exact ⟨_, (unfinished_of_walk h).completes⟩

theorem innermost_of_walk {o : Open} (h : walk? [] s = some (o :: opened)) :
    (∃ before v, s = before ++ .opens o.kind :: v ∧ Interior o.kind v) ∧
      Balanced (s ++ closers (o.kind :: opened.map Open.kind)) := by
  have hs := unfinished_of_walk h
  refine ⟨?_, hs.completes⟩
  cases hs with
  | inside hbefore hv => exact ⟨_, _, rfl, hv.interior⟩

end Stencil

import Stencil.Grammar.Callee
import Stencil.Proofs.Compiling.Blocks
import Stencil.Proofs.Rendering.Steps
/-!
# Parts of expressions

A call in an expression or a template, however deep, has got code of its own in the program, since only
names and literals are folded into the instructions that take them.
-/

namespace Stencil

namespace Expr

def children : Expr → List Expr
  | .apply _ args _ => args
  | .defined arg _ => [arg]
  | .fallback first second _ => [first, second]
  | .call _ args _ => args
  | .both left right _ => [left, right]
  | .either left right _ => [left, right]
  | _ => []

inductive Within (x : Expr) : Expr → Prop
  | self : Within x x
  | deeper {e child : Expr} : child ∈ e.children → Within x child → Within x e

variable {x e child : Expr} {folding : Bool} {here : Nat} {program : Array Instr} {args : List Expr}
  {last : Instr}

theorem Within.operand? (h : x.Within e) (hx : x.operand? = none) : e.operand? = none := by
  cases h with
  | self => exact hx
  | deeper hchild _ =>
    cases e with
    | literal | name => cases hchild
    | _ => rfl

theorem folded?_eq_none (h : e.operand? = none) : e.folded? folding = none := by
  unfold Expr.folded?
  rw [h, ite_self]

/-! ## Their code -/

def Stands (program : Array Instr) (folding : Bool) (x : Expr) : Prop :=
  ∃ here, Code.At program here (x.code folding here)

theorem stands_of_mem (he : e ∈ args) (hfold : e.folded? folding = none)
    (h : Code.At program here (codeArgs folding here args last)) : e.Stands program folding := by
  induction args generalizing here with
  | nil => cases he
  | cons a rest ih =>
    by_cases hlast : rest = [] ∧ (a.folded? folding).isSome
    · -- only a last argument is folded, and this one is not
      obtain ⟨rfl, hsome⟩ := hlast
      rw [List.mem_singleton.mp he] at hfold
      rw [hfold] at hsome
      cases hsome
    · rw [codeArgs_cons hlast] at h
      rcases List.mem_cons.mp he with rfl | he
      · exact ⟨here, h.left⟩
      · exact ih he h.right

theorem stands_child (h : e.Stands program folding) (hchild : child ∈ e.children)
    (hc : child.operand? = none) : child.Stands program folding := by
  obtain ⟨here, h⟩ := h
  have hfold : child.folded? folding = none := folded?_eq_none hc
  cases e with
  | literal | name => cases hchild
  | apply f args span =>
    rw [code] at h
    exact stands_of_mem hchild hfold h
  | defined arg span =>
    cases List.mem_singleton.mp hchild
    rw [code, hfold] at h
    exact ⟨here, h.left⟩
  | fallback first second span =>
    rw [code] at h
    simp only [children, List.mem_cons, List.not_mem_nil, or_false] at hchild
    rcases hchild with rfl | rfl
    · rw [hc] at h
      exact ⟨here, h.left.left⟩
    · split at h
      · exact ⟨here, h.left⟩
      · exact ⟨_, h.left.right⟩
  | call name args span =>
    rw [code] at h
    exact stands_of_mem hchild hfold h
  | both left right span =>
    rw [code, shortcut] at h
    simp only [children, List.mem_cons, List.not_mem_nil, or_false] at hchild
    rcases hchild with rfl | rfl
    · exact ⟨here, h.left.left⟩
    · exact ⟨_, h.left.right.tail⟩
  | either left right span =>
    rw [code, shortcut] at h
    simp only [children, List.mem_cons, List.not_mem_nil, or_false] at hchild
    rcases hchild with rfl | rfl
    · exact ⟨here, h.left.left⟩
    · exact ⟨_, h.left.right.tail⟩

theorem Within.stands (hw : x.Within e) (hx : x.operand? = none) (h : e.Stands program folding) :
    x.Stands program folding := by
  induction hw with
  | self => exact h
  | deeper hchild hw ih => exact ih (stands_child h hchild (hw.operand? hx))

/-! ## Their places -/

theorem placed_of_mem {source : List Char} (h : AllPlaced source args) (he : e ∈ args) :
    e.Placed source := by
  induction args with
  | nil => cases he
  | cons a rest ih =>
    rcases List.mem_cons.mp he with rfl | he
    · exact h.1
    · exact ih h.2 he

theorem placed_child {source : List Char} (h : e.Placed source) (hchild : child ∈ e.children) :
    child.Placed source := by
  cases e with
  | literal | name => cases hchild
  | apply f args span => exact placed_of_mem h.1 hchild
  | call name args span => exact placed_of_mem h.2.1 hchild
  | defined arg span =>
    cases List.mem_singleton.mp hchild
    exact h.1
  | fallback first second span =>
    have hall : AllPlaced source [first, second] := ⟨h.1, h.2.1, trivial⟩
    exact placed_of_mem hall hchild
  | both left right span =>
    have hall : AllPlaced source [left, right] := ⟨h.1, h.2.1, trivial⟩
    exact placed_of_mem hall hchild
  | either left right span =>
    have hall : AllPlaced source [left, right] := ⟨h.1, h.2.1, trivial⟩
    exact placed_of_mem hall hchild

theorem Within.placed {source : List Char} (hw : x.Within e) (h : e.Placed source) :
    x.Placed source := by
  induction hw with
  | self => exact h
  | deeper hchild _ ih => exact ih (placed_child h hchild)

def Among (x : Expr) (es : List Expr) : Prop := ∃ e ∈ es, x.Within e

theorem among_append {es es' : List Expr} : x.Among (es ++ es') ↔ x.Among es ∨ x.Among es' := by
  simp only [Among, List.mem_append, or_and_right, exists_or]

/-- The node of a call. The operators are no functions that have a name. -/
def isCall : Expr → Bool
  | .apply f _ _ => Builtin.named.any fun entry => entry.2.2 == f
  | .defined _ _ => true
  | .fallback _ _ _ => true
  | .call _ _ _ => true
  | _ => false

end Expr

/-! ## Expressions of a template -/

def Tag.exprs : Tag → List Expr
  | .output e _ => [e]
  | .cond test => [test.expr]
  | .otherwiseIf _ test => [test.expr]
  | .loop _ source => [source.expr]
  | .set _ e _ => [e]
  | _ => []

namespace Body

def exprs : Body → List Expr
  | .done => []
  | .text _ _ rest => rest.exprs
  | .output e _ rest => e :: rest.exprs
  | .cond test yes rest => test.expr :: (yes.exprs ++ rest.exprs)
  | .choice test yes _ no rest => test.expr :: (yes.exprs ++ (no.exprs ++ rest.exprs))
  | .loop _ source body _ rest => source.expr :: (body.exprs ++ rest.exprs)
  | .inclusion _ _ rest => rest.exprs
  | .set _ e _ rest => e :: rest.exprs

def Edge.exprs : Edge → List Expr
  | .otherwise _ no => no.exprs
  | _ => []

theorem exprs_conditional (test : Part) (yes : Body) (edge : Edge) (rest : Body) :
    (conditional test yes edge rest).exprs =
      test.expr :: (yes.exprs ++ (edge.exprs ++ rest.exprs)) := by
  cases edge <;> rfl

mutual

theorem exprs_of_derives : ∀ {ts : List Tag} {b : Body}, Derives ts b →
    b.exprs = ts.flatMap Tag.exprs
  | _, _, .done => rfl
  | _, _, .text s span h => by
    rw [exprs, exprs_of_derives h]
    rfl
  | _, _, .output e span h => congrArg (e :: ·) (exprs_of_derives h)
  | _, _, .inclusion key name span h => by
    rw [exprs, exprs_of_derives h]
    rfl
  | _, _, .set path e span h => congrArg (e :: ·) (exprs_of_derives h)
  | _, _, .cond test hus hvs hts => by
    rw [exprs_conditional, exprs_of_derives hus, exprs_of_ends hvs, exprs_of_derives hts]
    simp [Tag.exprs]
  | _, _, .loop binder source span hus hts => by
    rw [exprs, exprs_of_derives hus, exprs_of_derives hts]
    simp [Tag.exprs]

theorem exprs_of_ends : ∀ {ts : List Tag} {edge : Edge}, Ends ts edge →
    edge.exprs = ts.flatMap Tag.exprs
  | _, _, .endIf => rfl
  | _, _, .otherwise span h => by
    rw [Edge.exprs, exprs_of_derives h]
    simp [Tag.exprs]
  | _, _, .otherwiseIf span test hus hvs => by
    rw [Edge.exprs, exprs_conditional, exprs_of_derives hus, exprs_of_ends hvs]
    simp [Tag.exprs, exprs]

end

variable {e : Expr} {folding : Bool} {program : Array Instr}

theorem placed_of_mem {b : Body} {source : List Char} (he : e ∈ b.exprs) (h : b.Placed source) :
    e.Placed source := by
  induction b with
  | done => cases he
  | text s span rest ih => exact ih he h.2
  | output a span rest ih =>
    rcases List.mem_cons.mp he with rfl | he
    · exact h.1
    · exact ih he h.2.2
  | cond test yes rest ihYes ih =>
    rcases List.mem_cons.mp he with rfl | he
    · exact h.1.expr
    · rcases List.mem_append.mp he with he | he
      · exact ihYes he h.2.1
      · exact ih he h.2.2
  | choice test yes span no rest ihYes ihNo ih =>
    rcases List.mem_cons.mp he with rfl | he
    · exact h.1.expr
    · rcases List.mem_append.mp he with he | he
      · exact ihYes he h.2.1
      · rcases List.mem_append.mp he with he | he
        · exact ihNo he h.2.2.2.1
        · exact ih he h.2.2.2.2
  | loop binder source body span rest ihBody ih =>
    rcases List.mem_cons.mp he with rfl | he
    · exact h.2.1.expr
    · rcases List.mem_append.mp he with he | he
      · exact ihBody he h.2.2.1
      · exact ih he h.2.2.2.2
  | inclusion key span rest ih => exact ih he h.2
  | set path a span rest ih =>
    rcases List.mem_cons.mp he with rfl | he
    · exact h.1
    · exact ih he h.2.2

theorem stands_feed {here : Nat} (h : Code.At program here (e.feed folding here).1)
    (hfold : e.folded? folding = none) : e.Stands program folding := by
  rw [Expr.feed, hfold] at h
  exact ⟨here, h⟩

theorem stands_of_mem {b : Body} (he : e ∈ b.exprs) (hfold : e.folded? folding = none) {here : Nat}
    (h : Code.At program here (b.code folding here)) : e.Stands program folding := by
  induction b generalizing here with
  | done => cases he
  | text s span rest ih =>
    rw [code] at h
    exact ih he h.tail
  | output a span rest ih =>
    rw [code_output] at h
    rcases List.mem_cons.mp he with rfl | he
    · exact stands_feed h.left hfold
    · exact ih he h.back
  | cond test yes rest ihYes ih =>
    rw [code] at h
    rcases List.mem_cons.mp he with rfl | he
    · exact ⟨here, h.left.left⟩
    · rcases List.mem_append.mp he with he | he
      · exact ihYes he h.left.back
      · have hrest := h.right
        rw [Code.place_cons] at hrest
        exact ih he hrest
  | choice test yes span no rest ihYes ihNo ih =>
    rw [code] at h
    rcases List.mem_cons.mp he with rfl | he
    · exact ⟨here, h.left.left.left⟩
    · rcases List.mem_append.mp he with he | he
      · exact ihYes he h.left.left.back
      · rcases List.mem_append.mp he with he | he
        · have hno := h.left.back
          rw [Code.place_cons] at hno
          exact ihNo he hno
        · have hrest := h.right
          rw [Code.place_append_cons] at hrest
          exact ih he hrest
  | loop binder source body span rest ihBody ih =>
    rw [code_loop] at h
    rcases List.mem_cons.mp he with rfl | he
    · exact stands_feed h.left.left hfold
    · rcases List.mem_append.mp he with he | he
      · exact ihBody he h.left.back
      · have hrest := h.back
        rw [Code.place_cons] at hrest
        exact ih he hrest
  | inclusion key span rest ih =>
    rw [code] at h
    exact ih he h.tail
  | set path a span rest ih =>
    rw [code_set] at h
    rcases List.mem_cons.mp he with rfl | he
    · exact stands_feed h.left hfold
    · exact ih he h.back

end Body

end Stencil

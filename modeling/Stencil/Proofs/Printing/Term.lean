import Stencil.Grammar.Expr
import Stencil.Json.Reader
import Stencil.Token.Scan
/-!
# Writing expressions

A `Term` is an expression without a source. It is written with one blank between its tokens, and with
parentheses around those of its parts that a `Style` picks, among them all that bind too loosely for the
place where they stand.
-/

namespace Stencil

/-! ## Ranks and operators -/

/-- How tightly an expression binds. Each rank is that of one rule of the grammar. -/
inductive Rank where
  | either | both | negation | comparison | sum | product | power | unary | operand
deriving DecidableEq

def Rank.toNat : Rank → Nat
  | .either => 1
  | .both => 2
  | .negation => 3
  | .comparison => 4
  | .sum => 5
  | .product => 6
  | .power => 7
  | .unary => 8
  | .operand => 9

structure Symbol where
  kind : Token.Kind
  text : String
deriving DecidableEq

def Token.symbol (t : Token) : Symbol := ⟨t.kind, t.text⟩

inductive Operator where
  | or | and | inside
  | relation (r : Relation)
  | arith (a : Arith)

namespace Operator

def symbol : Operator → Symbol
  | .or => ⟨.word, "or"⟩
  | .and => ⟨.word, "and"⟩
  | .inside => ⟨.word, "in"⟩
  | .relation .eq => ⟨.equal, "=="⟩
  | .relation .ne => ⟨.notEqual, "!="⟩
  | .relation .gt => ⟨.greater, ">"⟩
  | .relation .ge => ⟨.greaterEqual, ">="⟩
  | .relation .lt => ⟨.less, "<"⟩
  | .relation .le => ⟨.lessEqual, "<="⟩
  | .arith .add => ⟨.plus, "+"⟩
  | .arith .sub => ⟨.minus, "-"⟩
  | .arith .mul => ⟨.times, "*"⟩
  | .arith .div => ⟨.slash, "/"⟩
  | .arith .rem => ⟨.percent, "%"⟩
  | .arith .pow => ⟨.caret, "^"⟩

def rank : Operator → Rank
  | .or => .either
  | .and => .both
  | .inside | .relation _ => .comparison
  | .arith .add | .arith .sub => .sum
  | .arith .mul | .arith .div | .arith .rem => .product
  | .arith .pow => .power

/-- The loosest rank on the left: the same for the operators that group to the left. -/
def left : Operator → Rank
  | .or => .either
  | .and => .both
  | .inside | .relation _ => .sum
  | .arith .add | .arith .sub => .sum
  | .arith .mul | .arith .div | .arith .rem => .product
  | .arith .pow => .unary

/-- The loosest rank on the right: the same for the power, which groups to the right. -/
def right : Operator → Rank
  | .or => .both
  | .and => .negation
  | .inside | .relation _ => .sum
  | .arith .add | .arith .sub => .product
  | .arith .mul | .arith .div | .arith .rem => .power
  | .arith .pow => .power

def node : Operator → Expr → Expr → Span → Expr
  | .or => .either
  | .and => .both
  | .inside => .binary .inside
  | .relation r => .binary (.relation r)
  | .arith a => .binary (.arith a)

end Operator

/-! ## Terms -/

structure PlainWord where
  text : String
  isWord : ∃ c cs, text.toList = c :: cs ∧ Identifier.isStart c ∧ ∀ d ∈ cs, Identifier.isPart d
  notKeyword : Keyword.ofText? text = none

inductive IsLiteral : Token.Kind → List Char → Prop
  | number {c : Char} {cs : List Char} : c.isDigit → Token.numberRest c cs = (cs, []) →
    IsLiteral .number (c :: cs)
  | string {cs : List Char} : (∀ rest, Token.stringRest false (cs ++ rest) = (cs, rest)) →
    IsLiteral .string ('"' :: cs)

/-- A number without a sign, or a string, as it is written. -/
structure Literal where
  kind : Token.Kind
  text : String
  value : Value
  isLiteral : IsLiteral kind text.toList
  reads : Json.read? text = some value

inductive Term where
  | name (n : PlainWord)
  | literal (l : Literal)
  | call (n : PlainWord) (args : List Term)
  | negative (t : Term)
  | not (t : Term)
  | binary (op : Operator) (left right : Term)

def Term.rank : Term → Rank
  | .name _ | .literal _ | .call _ _ => .operand
  | .negative _ => .unary
  | .not _ => .negation
  | .binary op _ _ => op.rank

/-! ## Writing -/

/-- Where parentheses are written: at least around a term that binds more loosely than it has to. -/
structure Style where
  wraps : Rank → Term → Bool
  needed : ∀ rank t, t.rank.toNat < rank.toNat → wraps rank t

namespace Style

def least : Style where
  wraps rank t := t.rank.toNat < rank.toNat
  needed _ _ h := decide_eq_true h

def full : Style where
  wraps _ _ := true
  needed _ _ _ := rfl

def enclose (s : Style) (rank : Rank) (t : Term) (symbols : List Symbol) : List Symbol :=
  if s.wraps rank t then ⟨.leftParen, "("⟩ :: (symbols ++ [⟨.rightParen, ")"⟩]) else symbols

end Style

namespace Term

mutual

def bare (s : Style) : Term → List Symbol
  | .name n => [⟨.word, n.text⟩]
  | .literal l => [⟨l.kind, l.text⟩]
  | .call n args => ⟨.word, n.text⟩ :: ⟨.leftParen, "("⟩ :: (bareArgs s args ++ [⟨.rightParen, ")"⟩])
  | .negative t => ⟨.minus, "-"⟩ :: s.enclose .unary t (bare s t)
  | .not t => ⟨.word, "not"⟩ :: s.enclose .negation t (bare s t)
  | .binary op left right =>
    s.enclose op.left left (bare s left) ++ op.symbol :: s.enclose op.right right (bare s right)

def bareArgs (s : Style) : List Term → List Symbol
  | [] => []
  | [t] => s.enclose .either t (bare s t)
  | t :: rest => s.enclose .either t (bare s t) ++ ⟨.comma, ","⟩ :: bareArgs s rest

end

theorem bareArgs_cons (s : Style) (t t' : Term) (rest : List Term) :
    bareArgs s (t :: t' :: rest) =
      s.enclose .either t (t.bare s) ++ ⟨.comma, ","⟩ :: bareArgs s (t' :: rest) := by
  simp [bareArgs]

/-- The symbols of a term at a place where it may bind as loosely as the rank. -/
def symbols (s : Style) (rank : Rank) (t : Term) : List Symbol := s.enclose rank t (t.bare s)

def source (s : Style) (t : Term) : String :=
  String.ofList (['\x7b', '\x7b'] ++ (t.symbols s .either).flatMap (fun y => ' ' :: y.text.toList) ++
    [' ', '\x7d', '\x7d'])

end Term

/-! ## Trees -/

namespace Expr

mutual

def erase : Expr → Expr
  | .literal v _ => .literal v (.point 0)
  | .name word => .name ⟨word.text, .point 0⟩
  | .apply f args _ => .apply f (eraseArgs args) (.point 0)
  | .defined arg _ => .defined (erase arg) (.point 0)
  | .fallback first second _ => .fallback (erase first) (erase second) (.point 0)
  | .call word args _ => .call ⟨word.text, .point 0⟩ (eraseArgs args) (.point 0)
  | .both left right _ => .both (erase left) (erase right) (.point 0)
  | .either left right _ => .either (erase left) (erase right) (.point 0)

def eraseArgs : List Expr → List Expr
  | [] => []
  | e :: rest => erase e :: eraseArgs rest

end

theorem length_eraseArgs (es : List Expr) : (eraseArgs es).length = es.length := by
  induction es with
  | nil => rfl
  | cons e es ih => rw [eraseArgs, List.length_cons, List.length_cons, ih]

theorem length_of_eraseArgs {es es' : List Expr} (h : eraseArgs es = eraseArgs es') :
    es.length = es'.length := by
  rw [← length_eraseArgs, h, length_eraseArgs]

end Expr

namespace Term

mutual

/-- The tree of a term, if each of its calls has as many arguments as the function takes. -/
def tree? (r : Registry) : Term → Option Expr
  | .name n => some (.name ⟨n.text, .point 0⟩)
  | .literal l => some (.literal l.value (.point 0))
  | .call n args => (trees? r args).bind fun es =>
    match Callee.resolve r n.text es.length with
    | .ok callee => some (callee.node ⟨n.text, .point 0⟩ es (.point 0))
    | .error _ => none
  | .negative t => (tree? r t).map fun e => .negative (.point 0) e (.point 0)
  | .not t => (tree? r t).map fun e => .apply .not [e] (.point 0)
  | .binary op left right => (tree? r left).bind fun a => (tree? r right).map fun b =>
    op.node a b (.point 0)

def trees? (r : Registry) : List Term → Option (List Expr)
  | [] => some []
  | t :: rest => (tree? r t).bind fun e => (trees? r rest).map (e :: ·)

end

mutual

/-- Every call has as many arguments as the function takes. -/
def Fits (r : Registry) : Term → Prop
  | .name _ | .literal _ => True
  | .call n args => (∃ callee, Callee.resolve r n.text args.length = .ok callee) ∧ AllFit r args
  | .negative t | .not t => Fits r t
  | .binary _ left right => Fits r left ∧ Fits r right

def AllFit (r : Registry) : List Term → Prop
  | [] => True
  | t :: rest => Fits r t ∧ AllFit r rest

end

theorem length_trees? {r : Registry} {args : List Term} {es : List Expr} (h : trees? r args = some es) :
    es.length = args.length := by
  induction args generalizing es with
  | nil =>
    cases h
    rfl
  | cons t args ih =>
    simp only [trees?, Option.bind_eq_some_iff, Option.map_eq_some_iff] at h
    obtain ⟨e, -, es', hes, rfl⟩ := h
    rw [List.length_cons, List.length_cons, ih hes]

mutual

theorem isSome_tree? (r : Registry) : ∀ t : Term, (t.tree? r).isSome ↔ t.Fits r
  | .name n => by simp [tree?, Fits]
  | .literal l => by simp [tree?, Fits]
  | .call n args => by
    have hargs := isSome_trees? r args
    unfold tree? Fits
    cases hes : trees? r args with
    | none =>
      have hfit : ¬ AllFit r args := by simpa [hes] using hargs
      simp [hfit]
    | some es =>
      rw [hes] at hargs
      have hfit : AllFit r args := hargs.mp rfl
      rw [Option.bind_some, length_trees? hes]
      cases Callee.resolve r n.text args.length <;> simp [hfit]
  | .negative t => by simpa [tree?, Fits] using isSome_tree? r t
  | .not t => by simpa [tree?, Fits] using isSome_tree? r t
  | .binary op left right => by
    have hleft := isSome_tree? r left
    have hright := isSome_tree? r right
    unfold tree? Fits
    rw [← hleft, ← hright]
    cases tree? r left <;> cases tree? r right <;> simp

theorem isSome_trees? (r : Registry) : ∀ args : List Term, (trees? r args).isSome ↔ AllFit r args
  | [] => by simp [trees?, AllFit]
  | t :: args => by
    have ht := isSome_tree? r t
    have hargs := isSome_trees? r args
    unfold trees? AllFit
    rw [← ht, ← hargs]
    cases tree? r t <;> cases trees? r args <;> simp

end

end Term

end Stencil

import Stencil.Grammar.Callee
import Stencil.Tag
/-!
# The grammar of expressions

From the loosest to the tightest: `or`, `and`, `not`, one comparison or `in`, sums, products,
powers to the right, a minus sign in front, and operands. `Grammar.expr` reads an expression; the
rules below it take fuel, which the number of tokens bounds.
-/

namespace Stencil

namespace Grammar

/-! ## Operators -/

/-- The chains of operators that group to the left. -/
inductive Level where
  | either | both | sum | product
deriving DecidableEq

def Level.operator? (level : Level) (t : Token) : Option (Expr → Expr → Span → Expr) :=
  match level, t.kind, keyword? t with
  | .either, _, some .orWord => some .either
  | .both, _, some .andWord => some .both
  | .sum, .plus, _ => some (.binary (.arith .add))
  | .sum, .minus, _ => some (.binary (.arith .sub))
  | .product, .times, _ => some (.binary (.arith .mul))
  | .product, .slash, _ => some (.binary (.arith .div))
  | .product, .percent, _ => some (.binary (.arith .rem))
  | _, _, _ => none

def comparison? (t : Token) : Option Builtin :=
  match t.kind, keyword? t with
  | .equal, _ => some (.relation .eq)
  | .notEqual, _ => some (.relation .ne)
  | .greater, _ => some (.relation .gt)
  | .greaterEqual, _ => some (.relation .ge)
  | .less, _ => some (.relation .lt)
  | .lessEqual, _ => some (.relation .le)
  | _, some .inWord => some .inside
  | _, _ => none

def Part.join (node : Expr → Expr → Span → Expr) (left right : Part) : Part :=
  let span := left.span.join right.span
  ⟨node left.expr right.expr span, span⟩

/-! ## Operands that hold no expressions -/

def wordOperand (t : Token) : Except Reject Expr :=
  match keyword? t with
  | some .trueWord => .ok (.literal (.bool true) t.span)
  | some .falseWord => .ok (.literal (.bool false) t.span)
  | some .nullWord => .ok (.literal .null t.span)
  | some .andWord => .error ⟨.keywordOperand .andWord, t.span⟩
  | some .orWord => .error ⟨.keywordOperand .orWord, t.span⟩
  | some .notWord => .error ⟨.keywordOperand .notWord, t.span⟩
  | some .inWord => .error ⟨.keywordOperand .inWord, t.span⟩
  | _ => .ok (.name t.word)

def jsonOperand (what : LiteralKind) (t : Token) (ts : List Token) : Except Reject (Read Part) := do
  return (⟨.literal (← readJson what t.span t.text) t.span, t.span⟩, ts)

def structuredOperand (g : Grammar) (wanted : Token.Kind) (t : Token) (ts : List Token) :
    Except Reject (Read Part) := do
  let (stop, ts) ← g.skipBalanced wanted 0 ts
  let span := t.span.join stop
  return (⟨.literal (← g.readSlice span) span, span⟩, ts)

def callPart (g : Grammar) (name : Token) (args : List Expr) (stop : Span) : Except Reject Part :=
  let span := name.span.join stop
  match Callee.resolve g.functions name.text args.length with
  | .ok callee => .ok ⟨callee.node name.word args span, span⟩
  | .error fault => .error ⟨fault, name.span⟩

/-! ## The rules -/

mutual

def chain (g : Grammar) : Nat → Level → List Token → Except Reject (Read Part)
  | 0, _, ts => g.reject .expression ts
  | n + 1, level, ts => do
    let (left, ts) ← g.link n level ts
    g.chainRest n level left ts

def chainRest (g : Grammar) : Nat → Level → Part → List Token → Except Reject (Read Part)
  | 0, _, _, ts => g.reject .expression ts
  | n + 1, level, left, ts =>
    match level.operator? (g.head ts) with
    | none => .ok (left, ts)
    | some node => do
      let (right, ts) ← g.link n level ts.tail
      g.chainRest n level (Part.join node left right) ts

/-- What stands between the operators of a chain. -/
def link (g : Grammar) : Nat → Level → List Token → Except Reject (Read Part)
  | 0, _, ts => g.reject .expression ts
  | n + 1, level, ts =>
    match level with
    | .either => g.chain n .both ts
    | .both => g.negation n ts
    | .sum => g.chain n .product ts
    | .product => g.power n ts

def negation (g : Grammar) : Nat → List Token → Except Reject (Read Part)
  | 0, ts => g.reject .expression ts
  | n + 1, ts =>
    if g.ahead .notWord ts then do
      let (e, rest) ← g.negation n ts.tail
      let span := (g.head ts).span.join e.span
      return (⟨.apply .not [e.expr] span, span⟩, rest)
    else g.comparison n ts

def comparison (g : Grammar) : Nat → List Token → Except Reject (Read Part)
  | 0, ts => g.reject .expression ts
  | n + 1, ts => do
    let (left, ts) ← g.chain n .sum ts
    match comparison? (g.head ts) with
    | none => return (left, ts)
    | some f =>
      let (right, ts) ← g.chain n .sum ts.tail
      return (Part.join (.binary f) left right, ts)

def power (g : Grammar) : Nat → List Token → Except Reject (Read Part)
  | 0, ts => g.reject .expression ts
  | n + 1, ts => do
    let (base, ts) ← g.unary n ts
    if (g.head ts).kind = .caret then
      let (exponent, ts) ← g.power n ts.tail
      return (Part.join (.binary (.arith .pow)) base exponent, ts)
    else return (base, ts)

def unary (g : Grammar) : Nat → List Token → Except Reject (Read Part)
  | 0, ts => g.reject .expression ts
  | n + 1, ts =>
    if (g.head ts).kind = .minus then do
      let minus := (g.head ts).span
      let (e, ts) ← g.unary n ts.tail
      let span := minus.join e.span
      return (⟨.negative minus e.expr span, span⟩, ts)
    else g.operand n ts

def operand (g : Grammar) : Nat → List Token → Except Reject (Read Part)
  | 0, ts => g.reject .expression ts
  | n + 1, ts =>
    let t := g.head ts
    match t.kind with
    | .leftParen => do
      let (e, ts) ← g.chain n .either ts.tail
      let (stop, ts) ← g.expect .rightParen ts
      return (⟨e.expr, t.span.join stop.span⟩, ts)
    | .word =>
      if (g.head ts.tail).kind = .leftParen then do
        let (args, ts) ← g.arguments n ts.tail.tail
        let (stop, ts) ← g.expect .rightParen ts
        return (← g.callPart t args stop.span, ts)
      else do return (⟨← wordOperand t, t.span⟩, ts.tail)
    | .number => jsonOperand .number t ts.tail
    | .string => jsonOperand .string t ts.tail
    | .leftBracket => g.structuredOperand .rightBracket t ts.tail
    | .leftBrace => g.structuredOperand .rightBrace t ts.tail
    | _ => g.reject .expression ts

def arguments (g : Grammar) : Nat → List Token → Except Reject (Read (List Expr))
  | 0, ts => g.reject .expression ts
  | n + 1, ts =>
    if (g.head ts).kind = .rightParen then .ok ([], ts) else g.argumentList n ts

def argumentList (g : Grammar) : Nat → List Token → Except Reject (Read (List Expr))
  | 0, ts => g.reject .expression ts
  | n + 1, ts => do
    let (e, ts) ← g.chain n .either ts
    if (g.head ts).kind = .comma then
      let (args, ts) ← g.argumentList n ts.tail
      return (e.expr :: args, ts)
    else return ([e.expr], ts)

end

/-- Enough fuel for some tokens: no rule goes more than sixteen levels down per token. -/
def fuel (ts : List Token) : Nat := 16 * ts.length + 16

def expr (g : Grammar) (ts : List Token) : Except Reject (Read Part) := g.chain (fuel ts) .either ts

end Grammar

end Stencil

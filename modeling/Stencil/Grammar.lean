import Stencil.Callback
import Stencil.Expr
import Stencil.Json.Reader
/-!
# What a grammar builds on

The rules of the grammar are functions from the tokens ahead to what they read and the tokens after
it, or to the fault that they met. This module holds the steps that all rules share.
-/

namespace Stencil

structure Reject where
  fault : Fault
  span : Span

structure Grammar where
  source : List Char
  stop : Nat
  paths : PathStyle
  functions : Registry

abbrev Read (α : Type) := α × List Token

namespace Grammar

def of (source : String) (paths : PathStyle) (functions : Registry) : Grammar :=
  ⟨source.toList, byteSize source.toList, paths, functions⟩

/-! ## The next token -/

def head (g : Grammar) : List Token → Token
  | [] => .atEnd g.stop
  | t :: _ => t

def unexpected (what : Wanted) (found : Token) : Reject := ⟨.expected what found.kind, found.span⟩

def reject (g : Grammar) (what : Wanted) (ts : List Token) : Except Reject (Read α) :=
  .error (unexpected what (g.head ts))

def expect (g : Grammar) (kind : Token.Kind) (ts : List Token) : Except Reject (Read Token) :=
  if (g.head ts).kind = kind then .ok (g.head ts, ts.tail) else g.reject (.token kind) ts

def keyword? (t : Token) : Option Keyword :=
  if t.kind = .word then Keyword.ofText? t.text else none

def expectKeyword (g : Grammar) (word : Keyword) (ts : List Token) : Except Reject (Read Token) :=
  if keyword? (g.head ts) = some word then .ok (g.head ts, ts.tail)
  else g.reject (.keyword word) ts

def ahead (g : Grammar) (word : Keyword) (ts : List Token) : Bool :=
  keyword? (g.head ts) == some word

/-! ## Literals -/

def readJson (what : LiteralKind) (span : Span) (text : String) :
    Except Reject Value :=
  match Json.read? text with
  | some v => .ok v
  | none => .error ⟨.invalidLiteral what, span⟩

def readSlice (g : Grammar) (span : Span) : Except Reject Value :=
  readJson .structured span (String.ofList ((slice? g.source span).getD []))

/-- Passes over a literal up to the bracket that closes it, where brackets and braces count alike
and `depth` of them are open inside of it. Gives the span of that bracket. -/
def skipBalanced (g : Grammar) (wanted : Token.Kind) : Nat → List Token → Except Reject (Read Span)
  | _, [] => g.reject (.token wanted) []
  | depth, t :: ts =>
    match t.kind with
    | .leftBracket | .leftBrace => g.skipBalanced wanted (depth + 1) ts
    | .rightBracket | .rightBrace =>
      match depth with
      | 0 => .ok (t.span, ts)
      | depth + 1 => g.skipBalanced wanted depth ts
    | .endOfInput | .closing _ => g.reject (.token wanted) (t :: ts)
    | _ => g.skipBalanced wanted depth ts

end Grammar

end Stencil

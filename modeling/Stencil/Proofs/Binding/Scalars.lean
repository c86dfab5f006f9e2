import Stencil.Evaluation
import Stencil.Proofs.Binding.Moving
import Stencil.Proofs.Literals.RoundTrip
import Stencil.Proofs.Rendering.Steps
/-!
# Expressions that begin with a sign

A sign in front of an expression makes a number of what follows it, and no operator makes an array of
that.
-/

namespace Stencil

open Machine

/-! ## Values that are no arrays -/

def Builtin.isOperator : Builtin → Bool
  | .arith _ | .relation _ | .inside => true
  | _ => false

theorem Arith.apply_ne_array (op : Arith) (a b : Value) (items : List Value) :
    op.apply a b ≠ .ok (.array items) := by
  have hdouble : ∀ x : Option Double, Value.ofDouble? x ≠ .array items := fun x => by
    cases x <;> exact nofun
  unfold Arith.apply
  split
  · exact nofun
  · unfold Arith.numbers
    split
    · exact nofun
    · split
      · exact nofun
      · exact fun h => hdouble _ (Except.ok.inj h)
  · exact nofun

theorem Builtin.apply_ne_array {sorting : Sorting} {f : Builtin} (hf : f.isOperator)
    (args : Arguments) (items : List Value) : f.apply sorting args ≠ .ok (.array items) := by
  intro h
  cases f <;> cases hf
  all_goals
    obtain ⟨a, -, h⟩ := except_ok_of_bind h
    obtain ⟨b, -, h⟩ := except_ok_of_bind h
  · exact Arith.apply_ne_array _ _ _ _ (except_ok_of_lift h)
  · cases h
  · obtain ⟨found, -, h⟩ := except_ok_of_bind h
    cases h

/-- An expression that has a number or an operator at its root. -/
inductive Expr.Scalar : Expr → Prop
  | number (n : Number) (span : Span) : Scalar (.literal (.number n) span)
  | operator {f : Builtin} (args : List Expr) (span : Span) : f.isOperator → Scalar (.apply f args span)
  | both (left right : Expr) (span : Span) : Scalar (.both left right span)
  | either (left right : Expr) (span : Span) : Scalar (.either left right span)

theorem Expr.Scalar.eval_ne_array {e : Expr} (h : e.Scalar) (c : Context) (l : Layer)
    (items : List Value) : e.eval c l ≠ .ok (.array items) := by
  intro heval
  cases h with
  | number => cases heval
  | operator args span hf =>
    rw [Expr.eval] at heval
    obtain ⟨values, -, heval⟩ := except_ok_of_bind heval
    unfold Context.apply at heval
    split at heval
    · next v hv =>
      rw [Except.ok.inj heval] at hv
      exact Builtin.apply_ne_array hf values items hv
    · cases heval
  | both left right span =>
    rw [Expr.eval] at heval
    obtain ⟨v, -, heval⟩ := except_ok_of_bind heval
    split at heval
    · obtain ⟨w, -, heval⟩ := except_ok_of_bind heval
      cases heval
    · cases heval
  | either left right span =>
    rw [Expr.eval] at heval
    obtain ⟨v, -, heval⟩ := except_ok_of_bind heval
    split at heval
    · cases heval
    · obtain ⟨w, -, heval⟩ := except_ok_of_bind heval
      cases heval

/-! ## What begins with a sign -/

namespace Grammar

variable {g : Grammar} {n : Nat} {t : Token} {ts rest : List Token} {left p : Part} {level : Level}

def Signed (t : Token) : Prop :=
  t.kind = .minus ∨ t.kind = .number ∧ ∀ v, Json.read? t.text = some v → ∃ k, v = .number k

theorem operator_scalar {node : Expr → Expr → Span → Expr} (h : level.operator? t = some node)
    (a b : Expr) (span : Span) : (node a b span).Scalar := by
  unfold Level.operator? at h
  split at h <;> cases h
  · exact .either _ _ _
  · exact .both _ _ _
  all_goals exact .operator _ _ rfl

theorem comparison_scalar {f : Builtin} (h : comparison? t = some f) (a b : Expr) (span : Span) :
    (Expr.binary f a b span).Scalar := by
  refine .operator _ _ ?_
  unfold comparison? at h
  split at h <;> cases h <;> rfl

theorem chainRest_scalar (hleft : left.expr.Scalar)
    (h : g.chainRest n level left ts = .ok (p, rest)) : p.expr.Scalar := by
  induction n generalizing left ts with
  | zero => cases h
  | succ n ih =>
    rw [chainRest] at h
    split at h
    · cases h
      exact hleft
    · next node hnode =>
      obtain ⟨⟨right, us⟩, -, h⟩ := except_ok_of_bind h
      exact ih (operator_scalar hnode _ _ _) h

theorem comparisonRest_scalar (hleft : left.expr.Scalar)
    (h : g.comparisonRest n left ts = .ok (p, rest)) : p.expr.Scalar := by
  unfold comparisonRest at h
  split at h
  · cases h
    exact hleft
  · next f hf =>
    obtain ⟨⟨right, us⟩, -, h⟩ := except_ok_of_bind h
    cases h
    exact comparison_scalar hf _ _ _

theorem powerRest_scalar (hleft : left.expr.Scalar)
    (h : g.powerRest n left ts = .ok (p, rest)) : p.expr.Scalar := by
  unfold powerRest at h
  split at h
  · obtain ⟨⟨right, us⟩, -, h⟩ := except_ok_of_bind h
    cases h
    exact .operator _ _ rfl
  · cases h
    exact hleft

structure ScalarAt (g : Grammar) (n : Nat) (ts : List Token) : Prop where
  read : ∀ rank p rest, g.read rank n ts = .ok (p, rest) → p.expr.Scalar
  link : ∀ level p rest, g.link n level ts = .ok (p, rest) → p.expr.Scalar

namespace ScalarAt

theorem chain (ih : g.ScalarAt n ts) (h : g.chain (n + 1) level ts = .ok (p, rest)) :
    p.expr.Scalar := by
  rw [Grammar.chain] at h
  obtain ⟨⟨left, us⟩, hlink, h⟩ := except_ok_of_bind h
  exact chainRest_scalar (ih.link _ _ _ hlink) h

theorem negation (ih : g.ScalarAt n ts) (ht : Signed (g.head ts))
    (h : g.negation (n + 1) ts = .ok (p, rest)) : p.expr.Scalar := by
  have hnot : ¬ g.ahead .notWord ts = true := by
    rcases ht with ht | ⟨ht, -⟩ <;> simp [ahead, keyword?, ht]
  rw [Grammar.negation, if_neg hnot] at h
  exact ih.read .comparison _ _ h

theorem comparison (ih : g.ScalarAt n ts) (h : g.comparison (n + 1) ts = .ok (p, rest)) :
    p.expr.Scalar := by
  rw [comparison_eq] at h
  obtain ⟨⟨left, us⟩, hsum, h⟩ := except_ok_of_bind h
  exact comparisonRest_scalar (ih.read .sum _ _ hsum) h

theorem power (ih : g.ScalarAt n ts) (h : g.power (n + 1) ts = .ok (p, rest)) : p.expr.Scalar := by
  rw [power_eq] at h
  obtain ⟨⟨base, us⟩, hunary, h⟩ := except_ok_of_bind h
  exact powerRest_scalar (ih.read .unary _ _ hunary) h

theorem unary (ih : g.ScalarAt n ts) (h : g.unary (n + 1) ts = .ok (p, rest)) : p.expr.Scalar := by
  rw [Grammar.unary] at h
  split at h
  · obtain ⟨⟨q, us⟩, -, h⟩ := except_ok_of_bind h
    cases h
    exact .operator _ _ rfl
  · exact ih.read .operand _ _ h

theorem operand (ht : Signed (g.head ts)) (h : g.operand (n + 1) ts = .ok (p, rest)) :
    p.expr.Scalar := by
  rw [operand_eq] at h
  rcases ht with ht | ⟨ht, hvalue⟩
  · simp only [operandAt, ht] at h
    cases h
  · simp only [operandAt, ht, jsonOperand, readJson] at h
    obtain ⟨v, hv, h⟩ := except_ok_of_bind h
    cases h
    split at hv
    · next w hw =>
      cases hv
      obtain ⟨k, rfl⟩ := hvalue _ hw
      exact .number k _
    · cases hv

end ScalarAt

theorem scalarAt (ht : Signed (g.head ts)) (n : Nat) : g.ScalarAt n ts := by
  induction n with
  | zero =>
    refine ⟨fun rank p rest h => ?_, fun level p rest h => ?_⟩
    · cases rank <;> simp only [read, chain, negation, comparison, power, unary, operand] at h <;>
        cases h
    · rw [link] at h
      cases h
  | succ n ih =>
    refine ⟨fun rank p rest h => ?_, fun level p rest h => ?_⟩
    · cases rank with
      | either => exact ih.chain h
      | both => exact ih.chain h
      | sum => exact ih.chain h
      | product => exact ih.chain h
      | negation => exact ih.negation ht h
      | comparison => exact ih.comparison h
      | power => exact ih.power h
      | unary => exact ih.unary h
      | operand => exact ScalarAt.operand ht h
    · rw [link_eq] at h
      exact ih.read _ _ _ h

theorem number_of_read? {cs : List Char} {v : Value}
    (h : Json.read? (String.ofList ('-' :: cs)) = some v) : ∃ k, v = .number k := by
  obtain ⟨n, rest, hvalue, -⟩ := Json.value?_of_read? h
  cases n with
  | zero => cases hvalue
  | succ n =>
    rw [Json.value?_number (.inr rfl), Json.number?] at hvalue
    obtain ⟨⟨k, rest'⟩, -, hvalue⟩ := Option.bind_eq_some_iff.mp hvalue
    obtain ⟨number, -, hvalue⟩ := Option.bind_eq_some_iff.mp hvalue
    cases hvalue
    exact ⟨number, rfl⟩

theorem signLexeme_minus (cs : List Char) : Token.signLexeme '-' cs = ⟨.minus, ['-'], cs⟩ := by
  cases cs <;> rfl

theorem signed_of_first {m : Markup} {b : Bool} {c : Token.Cursor} {cs : List Char}
    {chunks : List Chunk} {u : Token} (hm : Token.exprOpener ∈ m.openers)
    (h : Token.Ends m b c cs (flat chunks) u)
    (hchunks : ∀ k ∈ chunks, k.Stands g) (hminus : (Json.skip cs).head? = some '-') :
    Signed (g.head (flat chunks ++ [u])) := by
  have hinner := flat_inner hchunks
  generalize flat chunks = us at h hinner
  cases us with
  | nil =>
    have hskip : Json.skip (cs ++ []) = [] := List.dropWhile_append_of_pos (h.blank hm)
    rw [← List.append_nil cs, hskip] at hminus
    cases hminus
  | cons t us =>
    obtain ⟨s⟩ := h.step hm (hinner t List.mem_cons_self)
    have hfirst : s.first = '-' := by
      have hskip := (congrArg (fun cs => (Json.skip cs).head?) s.chars).symm.trans hminus
      rw [skip_first s.blank s.passes.notBlank] at hskip
      exact Option.some.inj hskip
    have hlexeme := s.lexeme
    rw [hfirst] at hlexeme
    have htext := s.text h
    rw [hfirst] at htext
    show Signed t
    rw [Token.lexeme, if_neg (by decide), if_neg (by decide)] at hlexeme
    split at hlexeme
    · exact .inr ⟨(congrArg Token.Lexeme.kind hlexeme).symm, fun v hv => number_of_read? (htext ▸ hv)⟩
    · rw [if_neg (by decide), signLexeme_minus] at hlexeme
      exact .inl (congrArg Token.Lexeme.kind hlexeme).symm

theorem expr_scalar (ht : Signed (g.head ts)) (h : g.expr ts = .ok (p, rest)) : p.expr.Scalar :=
  (scalarAt ht _).read .either _ _ h

end Grammar

end Stencil

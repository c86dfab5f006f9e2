import Stencil.Grammar.Outline
import Stencil.Proofs.Calling.Reading
/-!
# The calls of a template

`Grammar.outlineCalls` lists the calls that the reading of a template comes to. A call that is refused
is what is wrong with the template. If nothing is, its tags hold the nodes of all calls.
-/

namespace Stencil

namespace Grammar

/-! ## The calls of a tag -/

def statementCalls (g : Grammar) (opened : List Open) (ts : List Token) : List CallSite :=
  match keyword? (g.head ts) with
  | some .ifWord => g.exprCalls ts.tail
  | some .elseWord =>
    if g.ahead .ifWord ts.tail && (Opened.close? opened .otherwiseIf).isSome then
      g.exprCalls ts.tail.tail
    else []
  | some .forWord =>
    callsAfter (g.binder ts.tail) fun (_, ts) =>
      callsAfter (g.expectKeyword .inWord ts) fun (_, ts) => g.exprCalls ts
  | some .setWord =>
    callsAfter (g.expect .word ts.tail) fun (_, ts) =>
      callsAfter (g.expect .assign ts) fun (_, ts) => g.exprCalls ts
  | _ => []

def pieceCalls (g : Grammar) (opened : List Open) (t : Token) (ts : List Token) : List CallSite :=
  match t.kind with
  | .opening .comment => []
  | .opening .expr => g.exprCalls ts
  | .opening _ => g.statementCalls opened ts
  | _ => []

def outlineCallsFrom (g : Grammar) : Nat → List Open → List Token → List CallSite
  | _, _, [] => []
  | 0, _, _ => []
  | n + 1, opened, t :: ts =>
    g.pieceCalls opened t ts ++ callsAfter (g.piece opened t ts) fun p =>
      callsAfter p.after fun ts => g.outlineCallsFrom n p.opened ts

/-- The calls that the reading of a template comes to. -/
def outlineCalls (g : Grammar) (ts : List Token) : List CallSite := g.outlineCallsFrom ts.length [] ts

/-! ## What becomes of them -/

def placedExprs (r : Read Placed) : List Expr := r.1.1.exprs

variable {g : Grammar} {opened : List Open} {t : Token} {ts : List Token} {n : Nat}

theorem expectKeyword_accounts (word : Keyword) :
    g.Accounts [] [] noExprs (g.expectKeyword word ts) := by
  unfold expectKeyword
  split
  · exact .ok (holds_refl [])
  · exact reject_accounts _

theorem binder_accounts : g.Accounts [] [] noExprs (g.binder ts) := by
  unfold binder
  apply Accounts.then (expect_accounts .word)
  rintro ⟨first, ts⟩ -
  dsimp only
  split
  · apply Accounts.then (expect_accounts .word)
    rintro ⟨second, ts⟩ -
    exact .ok (holds_refl [])
  · exact .ok (holds_refl [])

theorem stringLiteral_accounts : g.Accounts [] [] noExprs (g.stringLiteral ts) := by
  unfold stringLiteral
  apply Accounts.then (expect_accounts .string)
  rintro ⟨t, ts⟩ -
  dsimp only
  split
  · exact .ok (holds_refl [])
  · exact .error rfl

theorem ending_accounts {closer : Closer} {tag : Tag} {span : Span} (h : tag.exprs = []) :
    g.Accounts [] [] placedExprs (ending closer tag span opened ts) := by
  unfold ending
  split
  · apply Accounts.ok
    rw [placedExprs, h]
    exact holds_refl []
  · exact .error rfl

theorem elseStatement_accounts (span : Span) :
    g.Accounts (if g.ahead .ifWord ts && (Opened.close? opened .otherwiseIf).isSome then
        g.exprCalls ts.tail else [])
      [] placedExprs (g.elseStatement span opened ts) := by
  unfold elseStatement
  by_cases hahead : g.ahead .ifWord ts
  · rw [if_pos hahead, hahead, Bool.true_and]
    cases Opened.close? opened .otherwiseIf with
    | none => exact .error rfl
    | some opened' =>
      apply Accounts.then (expr_accounts g ts.tail)
      rintro ⟨test, ts⟩ -
      exact .ok (holds_refl [test.expr])
  · rw [if_neg hahead]
    simp only [hahead, Bool.false_and]
    exact ending_accounts rfl

theorem statement_accounts :
    g.Accounts (g.statementCalls opened ts) [] placedExprs (g.statement opened ts) := by
  unfold statementCalls statement
  dsimp only
  by_cases hkind : (g.head ts).kind = .word
  · rw [if_pos hkind]
    cases hword : keyword? (g.head ts) with
    | none => exact .error rfl
    | some word =>
      dsimp only [keywordStatement]
      cases word with
      | ifWord =>
        apply Accounts.then (expr_accounts g ts.tail)
        rintro ⟨test, ts⟩ -
        exact .ok (holds_refl [test.expr])
      | elseWord => exact elseStatement_accounts _
      | endIf => exact ending_accounts rfl
      | forWord =>
        apply Accounts.before binder_accounts
        rintro ⟨binder, ts⟩ -
        apply Accounts.before (expectKeyword_accounts .inWord)
        rintro ⟨_, ts⟩ -
        apply Accounts.then (expr_accounts g ts)
        rintro ⟨source, ts⟩ -
        exact .ok (holds_refl [source.expr])
      | endFor => exact ending_accounts rfl
      | includeWord =>
        apply Accounts.then stringLiteral_accounts
        rintro ⟨⟨name, span⟩, ts⟩ -
        exact .ok (holds_refl [])
      | setWord =>
        apply Accounts.before (expect_accounts .word)
        rintro ⟨name, ts⟩ -
        apply Accounts.before (expect_accounts .assign)
        rintro ⟨_, ts⟩ -
        apply Accounts.then (expr_accounts g ts)
        rintro ⟨value, ts⟩ -
        exact .ok (holds_refl [value.expr])
      | _ => exact .error rfl
  · have hnone : keyword? (g.head ts) = none := by
      unfold keyword?
      rw [if_neg hkind]
    rw [if_neg hkind, hnone]
    exact reject_accounts .statement

def Piece.exprs (p : Piece) : List Expr := p.tag.toList.flatMap Tag.exprs

theorem statementPiece_accounts (kind : TagKind) :
    g.Accounts (g.statementCalls opened ts) [] Piece.exprs (g.statementPiece kind opened ts) := by
  unfold statementPiece
  apply statement_accounts.map
  intro a
  simp [Piece.exprs, placedExprs]

theorem piece_accounts (g : Grammar) (opened : List Open) (t : Token) (ts : List Token) :
    g.Accounts (g.pieceCalls opened t ts) [] Piece.exprs (g.piece opened t ts) := by
  unfold pieceCalls piece
  cases t.kind with
  | opening kind =>
    cases kind with
    | comment => exact .ok (holds_refl [])
    | expr =>
      apply Accounts.then (expr_accounts g ts)
      rintro ⟨e, ts⟩ -
      apply Accounts.then (expect_accounts _)
      rintro ⟨stop, ts⟩ -
      exact .ok (holds_refl [e.expr])
    | block => exact statementPiece_accounts .block
    | line => exact statementPiece_accounts .line
  | text => exact .ok (holds_refl [])
  | _ => exact .error rfl

/-! ## Templates -/

/-- An outline that the calls account for. -/
structure Outlines (g : Grammar) (cs : List CallSite) (o : Outline) : Prop where
  refused : ∀ c ∈ cs, ∀ r, g.node c = .error r → o.fault = some r
  arity : ∀ r, o.fault = some r → r.fault.isArity → ∃ c ∈ cs, g.node c = .error r
  calls : o.fault = none → ∀ c ∈ cs, ∃ x, g.node c = .ok x ∧ x.Among (o.tags.flatMap Tag.exprs)
  only : ∀ x : Expr, x.isCall → x.Among (o.tags.flatMap Tag.exprs) → ∃ c ∈ cs, g.node c = .ok x

theorem finish_outlines : g.Outlines [] (g.finish opened) := by
  refine ⟨nofun, ?_, fun _ => nofun, ?_⟩
  · intro r hr harity
    cases opened with
    | nil => cases hr
    | cons o opened =>
      cases hr
      cases harity
  · rintro x - ⟨e, he, -⟩
    cases he

theorem outlines_error {cs : List CallSite} {r : Reject}
    (h : g.Accounts cs [] Piece.exprs (.error r)) : g.Outlines cs ⟨[], some r⟩ := by
  refine ⟨?_, ?_, nofun, ?_⟩
  · intro c hc r' hr'
    rw [h.1 c hc r' hr']
  · rintro _ ⟨⟩ harity
    exact h.2 harity
  · rintro x - ⟨e, he, -⟩
    cases he

theorem outlines_unclosed {cs : List CallSite} {p : Piece} {r : Reject}
    (h : g.Collects cs [] p.exprs) (hr : r.fault.isArity = false) : g.Outlines cs ⟨p.tag.toList, some r⟩ := by
  refine ⟨?_, ?_, nofun, ?_⟩
  · intro c hc r' hr'
    obtain ⟨x, hx, -⟩ := h.calls c hc
    rw [hx] at hr'
    cases hr'
  · rintro _ ⟨⟩ harity
    rw [hr] at harity
    cases harity
  · intro x hcall hx
    rcases h.only x hcall hx with ⟨e, he, -⟩ | hc
    · cases he
    · exact hc

theorem outlines_cons {cs cs' : List CallSite} {p : Piece} {o : Outline}
    (h : g.Collects cs [] p.exprs) (ho : g.Outlines cs' o) : g.Outlines (cs ++ cs') (o.cons p.tag) := by
  have hexprs : (o.cons p.tag).tags.flatMap Tag.exprs = p.exprs ++ o.tags.flatMap Tag.exprs := by
    simp [Outline.cons, Piece.exprs]
  refine ⟨?_, ?_, ?_, ?_⟩
  · intro c hc r hr
    rcases List.mem_append.mp hc with hc | hc
    · obtain ⟨x, hx, -⟩ := h.calls c hc
      rw [hx] at hr
      cases hr
    · exact ho.refused c hc r hr
  · intro r hr harity
    obtain ⟨c, hc, hcr⟩ := ho.arity r hr harity
    exact ⟨c, List.mem_append_right cs hc, hcr⟩
  · intro hfault c hc
    rw [hexprs]
    rcases List.mem_append.mp hc with hc | hc
    · obtain ⟨x, hx, hmem⟩ := h.calls c hc
      exact ⟨x, hx, Expr.among_append.mpr (.inl hmem)⟩
    · obtain ⟨x, hx, hmem⟩ := ho.calls hfault c hc
      exact ⟨x, hx, Expr.among_append.mpr (.inr hmem)⟩
  · intro x hcall hx
    rw [hexprs] at hx
    rcases Expr.among_append.mp hx with hx | hx
    · rcases h.only x hcall hx with ⟨e, he, -⟩ | ⟨c, hc, hnode⟩
      · cases he
      · exact ⟨c, List.mem_append_left cs' hc, hnode⟩
    · obtain ⟨c, hc, hnode⟩ := ho.only x hcall hx
      exact ⟨c, List.mem_append_right cs hc, hnode⟩

theorem tagEnd_isArity {kind : TagKind} {r : Reject} (h : g.tagEnd kind ts = .error r) :
    r.fault.isArity = false := by
  unfold tagEnd at h
  dsimp only at h
  split at h <;> cases h
  rfl

theorem after_isArity {p : Piece} {r : Reject} (h : g.piece opened t ts = .ok p)
    (hr : p.after = .error r) : r.fault.isArity = false := by
  unfold piece at h
  split at h
  · cases h
    cases hr
  · cases h
    exact tagEnd_isArity hr
  · obtain ⟨_, -, h⟩ := except_ok_of_bind h
    obtain ⟨_, -, h⟩ := except_ok_of_bind h
    cases h
    cases hr
  · obtain ⟨_, -, h⟩ := except_ok_of_bind h
    cases h
    exact tagEnd_isArity hr
  · cases h

theorem outlineFrom_outlines (n : Nat) (opened : List Open) (ts : List Token) :
    g.Outlines (g.outlineCallsFrom n opened ts) (g.outlineFrom n opened ts) := by
  induction n generalizing opened ts with
  | zero =>
    cases ts with
    | nil => exact finish_outlines
    | cons t ts => exact finish_outlines
  | succ n ih =>
    cases ts with
    | nil => exact finish_outlines
    | cons t ts =>
      have hpiece := piece_accounts g opened t ts
      rw [outlineCallsFrom, outlineFrom]
      cases hp : g.piece opened t ts with
      | error r =>
        rw [hp] at hpiece
        rw [callsAfter, List.append_nil]
        exact outlines_error hpiece
      | ok p =>
        rw [hp] at hpiece
        dsimp only [callsAfter]
        cases hafter : p.after with
        | error r =>
          -- the tag counts though its end is missing, and nothing is read behind it
          rw [List.append_nil]
          exact outlines_unclosed hpiece (after_isArity hp hafter)
        | ok ts => exact outlines_cons hpiece (ih p.opened ts)

end Grammar

end Stencil

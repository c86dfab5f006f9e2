import Stencil.Grammar.Outline
/-!
# What the rules leave

The tokens that a rule leaves are the last of those that it was given. So a tag takes a token at least, and
an outline has no more tags than there are tokens.
-/

namespace Stencil

namespace Grammar

def Leaves (ts : List Token) (x : Except Reject (Read α)) : Prop := ∀ r, x = .ok r → r.2 <:+ ts

namespace Leaves

variable {ts us : List Token} {x : Except Reject (Read α)}

theorem ok {a : α} (h : us <:+ ts) : Leaves ts (.ok (a, us) : Except Reject (Read α)) := by
  rintro r ⟨⟩
  exact h

theorem error {r : Reject} : Leaves ts (.error r : Except Reject (Read α)) := nofun

theorem bind {f : Read α → Except Reject (Read β)} (hx : Leaves ts x)
    (hf : ∀ a us, us <:+ ts → Leaves ts (f (a, us))) : Leaves ts (x >>= f) := by
  cases x with
  | error r => exact error
  | ok r => exact hf r.1 r.2 (hx r rfl)

theorem of_suffix (hus : us <:+ ts) (hx : Leaves us x) : Leaves ts x :=
  fun r hr => (hx r hr).trans hus

theorem of_tail (hx : Leaves ts.tail x) : Leaves ts x := hx.of_suffix (List.tail_suffix ts)

theorem of_value {y : Except Reject β} {f : β → α} (h : us <:+ ts) :
    Leaves ts (do return (f (← y), us)) := by
  cases y with
  | error r => exact error
  | ok b => exact ok h

end Leaves

variable {g : Grammar} {ts : List Token} {n : Nat}

/-! ## Expressions -/

theorem expect_leaves (kind : Token.Kind) : Leaves ts (g.expect kind ts) := by
  unfold expect
  split
  · exact .ok (List.tail_suffix ts)
  · exact .error

theorem expectKeyword_leaves (word : Keyword) : Leaves ts (g.expectKeyword word ts) := by
  unfold expectKeyword
  split
  · exact .ok (List.tail_suffix ts)
  · exact .error

theorem skipBalanced_leaves (wanted : Token.Kind) (depth : Nat) :
    Leaves ts (g.skipBalanced wanted depth ts) := by
  induction ts generalizing depth with
  | nil => exact .error
  | cons t ts ih =>
    have hstep : ∀ depth, Leaves (t :: ts) (g.skipBalanced wanted depth ts) :=
      fun depth => (ih depth).of_suffix (List.suffix_cons t ts)
    unfold skipBalanced
    split
    · exact hstep _
    · exact hstep _
    · split
      · exact .ok (List.suffix_cons t ts)
      · exact hstep _
    · split
      · exact .ok (List.suffix_cons t ts)
      · exact hstep _
    · exact .error
    · exact .error
    · exact hstep _

theorem structuredOperand_leaves (wanted : Token.Kind) (t : Token) :
    Leaves ts (g.structuredOperand wanted t ts) := by
  refine (skipBalanced_leaves wanted 0).bind ?_
  intro stop us hus
  exact .of_value (f := fun v => (⟨.literal v _, _⟩ : Part)) hus

/-- What the rules leave with some fuel. -/
structure AllLeave (g : Grammar) (n : Nat) : Prop where
  chain : ∀ level ts, Leaves ts (g.chain n level ts)
  chainRest : ∀ level left ts, Leaves ts (g.chainRest n level left ts)
  link : ∀ level ts, Leaves ts (g.link n level ts)
  negation : ∀ ts, Leaves ts (g.negation n ts)
  comparison : ∀ ts, Leaves ts (g.comparison n ts)
  power : ∀ ts, Leaves ts (g.power n ts)
  unary : ∀ ts, Leaves ts (g.unary n ts)
  operand : ∀ ts, Leaves ts (g.operand n ts)
  arguments : ∀ ts, Leaves ts (g.arguments n ts)
  argumentList : ∀ ts, Leaves ts (g.argumentList n ts)

section

variable (ih : g.AllLeave n)

include ih

theorem chainRest_leaves (level : Level) (left : Part) :
    Leaves ts (g.chainRest (n + 1) level left ts) := by
  rw [chainRest]
  split
  · exact .ok List.suffix_rfl
  · apply Leaves.of_tail
    refine (ih.link level ts.tail).bind ?_
    intro right us hus
    exact (ih.chainRest level _ us).of_suffix hus

theorem link_leaves (level : Level) : Leaves ts (g.link (n + 1) level ts) := by
  rw [link.eq_def]
  cases level with
  | either => exact ih.chain .both ts
  | both => exact ih.negation ts
  | sum => exact ih.chain .product ts
  | product => exact ih.power ts

theorem negation_leaves : Leaves ts (g.negation (n + 1) ts) := by
  rw [negation]
  split
  · exact .of_tail ((ih.negation ts.tail).bind fun e us hus => .ok hus)
  · exact ih.comparison ts

theorem comparison_leaves : Leaves ts (g.comparison (n + 1) ts) := by
  refine (ih.chain .sum ts).bind ?_
  intro left us hus
  dsimp only
  split
  · exact .ok hus
  · refine .of_suffix hus (.of_tail ?_)
    exact (ih.chain .sum us.tail).bind fun right vs hvs => .ok hvs

theorem power_leaves : Leaves ts (g.power (n + 1) ts) := by
  refine (ih.unary ts).bind ?_
  intro base us hus
  dsimp only
  split
  · refine .of_suffix hus (.of_tail ?_)
    exact (ih.power us.tail).bind fun exponent vs hvs => .ok hvs
  · exact .ok hus

theorem unary_leaves : Leaves ts (g.unary (n + 1) ts) := by
  rw [unary]
  split
  · exact .of_tail ((ih.unary ts.tail).bind fun e us hus => .ok hus)
  · exact ih.operand ts

theorem operand_leaves : Leaves ts (g.operand (n + 1) ts) := by
  rw [operand]
  dsimp only
  split
  · apply Leaves.of_tail
    refine (ih.chain .either ts.tail).bind ?_
    intro e us hus
    refine .of_suffix hus ((expect_leaves _).bind ?_)
    exact fun stop vs hvs => .ok hvs
  · apply Leaves.of_tail
    split
    · apply Leaves.of_tail
      refine (ih.arguments _).bind ?_
      intro args us hus
      refine .of_suffix hus ((expect_leaves _).bind ?_)
      exact fun stop vs hvs => .of_value (f := id) hvs
    · exact .of_value (f := fun e => (⟨e, _⟩ : Part)) List.suffix_rfl
  · exact .of_tail (.of_value (f := fun v => (⟨.literal v _, _⟩ : Part)) List.suffix_rfl)
  · exact .of_tail (.of_value (f := fun v => (⟨.literal v _, _⟩ : Part)) List.suffix_rfl)
  · exact .of_tail (structuredOperand_leaves _ _)
  · exact .of_tail (structuredOperand_leaves _ _)
  · exact .error

theorem arguments_leaves : Leaves ts (g.arguments (n + 1) ts) := by
  rw [arguments]
  split
  · exact .ok List.suffix_rfl
  · exact ih.argumentList ts

theorem argumentList_leaves : Leaves ts (g.argumentList (n + 1) ts) := by
  refine (ih.chain .either ts).bind ?_
  intro e us hus
  dsimp only
  split
  · refine .of_suffix hus (.of_tail ?_)
    exact (ih.argumentList us.tail).bind fun args vs hvs => .ok hvs
  · exact .ok hus

end

theorem allLeave (g : Grammar) (n : Nat) : g.AllLeave n := by
  induction n with
  | zero =>
    constructor <;> intros <;> exact Leaves.error
  | succ n ih =>
    refine ⟨?_, fun level left _ => chainRest_leaves ih level left, fun level _ => link_leaves ih level,
      fun _ => negation_leaves ih, fun _ => comparison_leaves ih, fun _ => power_leaves ih,
      fun _ => unary_leaves ih, fun _ => operand_leaves ih, fun _ => arguments_leaves ih,
      fun _ => argumentList_leaves ih⟩
    intro level ts
    exact (ih.link level ts).bind fun left us hus => (ih.chainRest level left us).of_suffix hus

theorem expr_leaves : Leaves ts (g.expr ts) := (g.allLeave _).chain .either ts

/-! ## Statements and tags -/

theorem binder_leaves : Leaves ts (g.binder ts) := by
  refine (expect_leaves _).bind ?_
  intro first us hus
  dsimp only
  split
  · refine .of_suffix hus (.of_tail ?_)
    exact (expect_leaves _).bind fun second vs hvs => .ok hvs
  · exact .ok hus

theorem stringLiteral_leaves : Leaves ts (g.stringLiteral ts) := by
  refine (expect_leaves _).bind ?_
  intro t us hus
  dsimp only
  split
  · exact .ok hus
  · exact .error

theorem ending_leaves (closer : Closer) (t : Tag) (span : Span) (opened : List Open) :
    Leaves ts (ending closer t span opened ts) := by
  unfold ending
  split
  · exact .ok List.suffix_rfl
  · exact .error

theorem elseStatement_leaves (span : Span) (opened : List Open) :
    Leaves ts (g.elseStatement span opened ts) := by
  unfold elseStatement
  split
  · split
    · exact .of_tail (expr_leaves.bind fun test us hus => .ok hus)
    · exact .error
  · exact ending_leaves _ _ _ _

theorem keywordStatement_leaves (word : Keyword) (t : Token) (opened : List Open) :
    Leaves ts (g.keywordStatement word t opened ts) := by
  unfold keywordStatement
  split
  · exact expr_leaves.bind fun test us hus => .ok hus
  · exact elseStatement_leaves _ _
  · exact ending_leaves _ _ _ _
  · refine binder_leaves.bind ?_
    intro binder us hus
    refine .of_suffix hus ((expectKeyword_leaves _).bind ?_)
    intro _ vs hvs
    exact .of_suffix hvs (expr_leaves.bind fun source ws hws => .ok hws)
  · exact ending_leaves _ _ _ _
  · exact stringLiteral_leaves.bind fun name us hus => .ok hus
  · refine (expect_leaves _).bind ?_
    intro name us hus
    refine .of_suffix hus ((expect_leaves _).bind ?_)
    intro _ vs hvs
    exact .of_suffix hvs (expr_leaves.bind fun value ws hws => .ok hws)
  · exact .error

theorem statement_leaves (opened : List Open) : Leaves ts (g.statement opened ts) := by
  unfold statement
  dsimp only
  split
  · split
    · exact .of_tail (keywordStatement_leaves _ _ _)
    · exact .error
  · exact .error

theorem tagEnd_suffix {kind : TagKind} {us : List Token} (h : g.tagEnd kind ts = .ok us) :
    us <:+ ts := by
  unfold tagEnd at h
  dsimp only at h
  split at h
  · cases h
    exact List.tail_suffix ts
  · cases h

theorem piece_suffix {opened : List Open} {t : Token} {p : Piece} {us : List Token}
    (h : g.piece opened t ts = .ok p) (hafter : p.after = .ok us) : us <:+ ts := by
  unfold piece at h
  split at h
  · cases h
    cases hafter
    exact List.suffix_rfl
  · cases h
    exact tagEnd_suffix hafter
  · have hread : Leaves ts (do let r ← g.expr ts; g.expect (.closing .expr) r.2) :=
      expr_leaves.bind fun e us hus => .of_suffix hus (expect_leaves _)
    cases he : g.expr ts with
    | error r => rw [he] at h; cases h
    | ok r =>
      rw [he] at h hread
      dsimp only [Bind.bind, Except.bind] at h hread
      cases hstop : g.expect (.closing .expr) r.2 with
      | error r => rw [hstop] at h; cases h
      | ok stop =>
        rw [hstop] at h
        cases h
        cases hafter
        exact hread _ hstop
  · have hread : Leaves ts (g.statement opened ts) := statement_leaves opened
    unfold statementPiece at h
    cases hs : g.statement opened ts with
    | error r => rw [hs] at h; cases h
    | ok r =>
      rw [hs] at h
      cases h
      exact (tagEnd_suffix hafter).trans (hread r hs)
  · cases h

end Grammar

end Stencil

import Stencil.Grammar.Outline
import Stencil.Proofs.Placement.Tokens
import Stencil.Proofs.Placement.Tree
/-!
# What the grammar reads stands in the source

Every rule turns placed tokens into a placed tree, or rejects them with a span of the source.
-/

namespace Stencil

def Gives (source : List Char) (P : α → Prop) : Except Reject α → Prop
  | .ok a => P a
  | .error r => r.span.Inside source

namespace Gives

variable {source : List Char} {P : α → Prop} {Q : β → Prop} {x : Except Reject α}

theorem bind (hx : Gives source P x) {f : α → Except Reject β} (hf : ∀ a, P a → Gives source Q (f a)) :
    Gives source Q (x >>= f) := by
  cases x with
  | ok a => exact hf a hx
  | error r => exact hx

theorem mono {P' : α → Prop} (hx : Gives source P x) (h : ∀ a, P a → P' a) : Gives source P' x := by
  cases x with
  | ok a => exact h a hx
  | error r => exact hx

end Gives

namespace Token

theorem Placed.inside {source : List Char} {t : Token} (h : t.Placed source) : t.span.Inside source :=
  Span.Covers.inside h

end Token

namespace Grammar

def Fits (g : Grammar) : Prop := g.stop = byteSize g.source

theorem of_fits (source : String) (paths : PathStyle) (functions : Registry) :
    (Grammar.of source paths functions).Fits := rfl

def AllPlaced (g : Grammar) (ts : List Token) : Prop := ∀ t ∈ ts, t.Placed g.source

def Reads (g : Grammar) (P : α → Prop) (x : Except Reject (Read α)) : Prop :=
  Gives g.source (fun (a, ts) => P a ∧ g.AllPlaced ts) x

variable {g : Grammar} {ts : List Token}

theorem AllPlaced.tail (h : g.AllPlaced ts) : g.AllPlaced ts.tail := fun t ht => h t (List.mem_of_mem_tail ht)

theorem AllPlaced.head (hg : g.Fits) (h : g.AllPlaced ts) : (g.head ts).Placed g.source := by
  cases ts with
  | nil => exact ⟨g.source, [], by simp [Grammar.head, Token.atEnd], by rw [Grammar.head, hg]; rfl⟩
  | cons t ts => exact h t List.mem_cons_self

/-! ## Steps that all rules share -/

theorem reject_reads (hg : g.Fits) (h : g.AllPlaced ts) (what : Wanted) (P : α → Prop) :
    g.Reads P (g.reject what ts) := (h.head hg).inside

theorem expect_reads (hg : g.Fits) (h : g.AllPlaced ts) (kind : Token.Kind) :
    g.Reads (·.Placed g.source) (g.expect kind ts) := by
  unfold expect
  split
  · exact ⟨h.head hg, h.tail⟩
  · exact reject_reads hg h _ _

theorem expectKeyword_reads (hg : g.Fits) (h : g.AllPlaced ts) (word : Keyword) :
    g.Reads (·.Placed g.source) (g.expectKeyword word ts) := by
  unfold expectKeyword
  split
  · exact ⟨h.head hg, h.tail⟩
  · exact reject_reads hg h _ _

theorem readJson_gives {span : Span} (h : span.Inside g.source) (what : LiteralKind) (text : String) :
    Gives g.source (fun _ => True) (readJson what span text) := by
  unfold readJson
  split
  · trivial
  · exact h

theorem skipBalanced_reads (hg : g.Fits) (wanted : Token.Kind) (depth : Nat) (h : g.AllPlaced ts) :
    g.Reads (·.Inside g.source) (g.skipBalanced wanted depth ts) := by
  induction ts generalizing depth with
  | nil => exact reject_reads hg h _ _
  | cons t ts ih =>
    have ht := h t List.mem_cons_self
    have hts : g.AllPlaced ts := h.tail
    unfold skipBalanced
    split
    · exact ih _ hts
    · exact ih _ hts
    · split
      · exact ⟨ht.inside, hts⟩
      · exact ih _ hts
    · split
      · exact ⟨ht.inside, hts⟩
      · exact ih _ hts
    · exact reject_reads hg h _ _
    · exact reject_reads hg h _ _
    · exact ih _ hts

/-! ## Operands -/

theorem wordOperand_gives {t : Token} (ht : t.Placed g.source) :
    Gives g.source (·.Placed g.source) (wordOperand t) := by
  unfold wordOperand
  split
  · exact ht.inside
  · exact ht.inside
  · exact ht.inside
  · exact ht.inside
  · exact ht.inside
  · exact ht.inside
  · exact ht.inside
  · exact ht

theorem jsonOperand_reads {t : Token} (ht : t.Placed g.source) (h : g.AllPlaced ts)
    (what : LiteralKind) : g.Reads (·.Placed g.source) (jsonOperand what t ts) :=
  (readJson_gives ht.inside what t.text).bind fun _ _ => ⟨⟨ht.inside, ht.inside⟩, h⟩

theorem structuredOperand_reads (hg : g.Fits) {t : Token} (ht : t.Placed g.source) (h : g.AllPlaced ts)
    (wanted : Token.Kind) : g.Reads (·.Placed g.source) (g.structuredOperand wanted t ts) := by
  refine (skipBalanced_reads hg wanted 0 h).bind ?_
  rintro ⟨stop, rest⟩ ⟨hstop, hrest⟩
  have hspan := ht.inside.join hstop
  exact (readJson_gives hspan _ _).bind fun _ _ => ⟨⟨hspan, hspan⟩, hrest⟩

theorem node_placed {callee : Callee} {name : Word} {args : List Expr} {span : Span}
    (hname : name.Placed g.source) (hargs : Expr.AllPlaced g.source args)
    (hspan : span.Inside g.source) : (callee.node name args span).Placed g.source := by
  unfold Callee.node
  split
  · exact ⟨hargs, hspan⟩
  · exact ⟨hargs.1, hspan⟩
  · exact ⟨hargs.1, hargs.2.1, hspan⟩
  · exact ⟨hname, hargs, hspan⟩

theorem callPart_gives {t : Token} (ht : t.Placed g.source) {args : List Expr}
    (hargs : Expr.AllPlaced g.source args) {stop : Span} (hstop : stop.Inside g.source) :
    Gives g.source (·.Placed g.source) (g.callPart t args stop) := by
  have hspan := ht.inside.join hstop
  unfold callPart
  dsimp only
  split
  · exact ⟨node_placed ht hargs hspan, hspan⟩
  · exact ht.inside

/-! ## Expressions -/

def Joins (source : List Char) (node : Expr → Expr → Span → Expr) : Prop :=
  ∀ left right span, left.Placed source → right.Placed source → span.Inside source →
    (node left right span).Placed source

theorem binary_joins (source : List Char) (f : Builtin) : Joins source (.binary f) :=
  fun _ _ _ hl hr hs => ⟨⟨hl, hr, trivial⟩, hs⟩

theorem operator_joins (source : List Char) {level : Level} {t : Token}
    {node : Expr → Expr → Span → Expr} (h : level.operator? t = some node) : Joins source node := by
  unfold Level.operator? at h
  split at h <;> cases h
  · exact fun _ _ _ hl hr hs => ⟨hl, hr, hs⟩
  · exact fun _ _ _ hl hr hs => ⟨hl, hr, hs⟩
  all_goals exact binary_joins source _

theorem join_placed {source : List Char} {node : Expr → Expr → Span → Expr} (h : Joins source node)
    {left right : Part} (hl : left.Placed source) (hr : right.Placed source) :
    (Part.join node left right).Placed source :=
  have hspan := hl.span.join hr.span
  ⟨h _ _ _ hl.expr hr.expr hspan, hspan⟩

/-- What the rules read with some fuel is placed. -/
structure Sound (g : Grammar) (n : Nat) : Prop where
  chain : ∀ level ts, g.AllPlaced ts → g.Reads (·.Placed g.source) (g.chain n level ts)
  chainRest : ∀ level left ts, left.Placed g.source → g.AllPlaced ts →
    g.Reads (·.Placed g.source) (g.chainRest n level left ts)
  link : ∀ level ts, g.AllPlaced ts → g.Reads (·.Placed g.source) (g.link n level ts)
  negation : ∀ ts, g.AllPlaced ts → g.Reads (·.Placed g.source) (g.negation n ts)
  comparison : ∀ ts, g.AllPlaced ts → g.Reads (·.Placed g.source) (g.comparison n ts)
  power : ∀ ts, g.AllPlaced ts → g.Reads (·.Placed g.source) (g.power n ts)
  unary : ∀ ts, g.AllPlaced ts → g.Reads (·.Placed g.source) (g.unary n ts)
  operand : ∀ ts, g.AllPlaced ts → g.Reads (·.Placed g.source) (g.operand n ts)
  arguments : ∀ ts, g.AllPlaced ts → g.Reads (Expr.AllPlaced g.source) (g.arguments n ts)
  argumentList : ∀ ts, g.AllPlaced ts → g.Reads (Expr.AllPlaced g.source) (g.argumentList n ts)

section

variable {n : Nat} (hg : g.Fits) (ih : g.Sound n) (h : g.AllPlaced ts)

include ih h in
theorem chain_reads (level : Level) : g.Reads (·.Placed g.source) (g.chain (n + 1) level ts) := by
  refine (ih.link level ts h).bind ?_
  rintro ⟨left, ts⟩ ⟨hl, hts⟩
  exact ih.chainRest level left ts hl hts

include ih h in
theorem chainRest_reads (level : Level) {left : Part} (hl : left.Placed g.source) :
    g.Reads (·.Placed g.source) (g.chainRest (n + 1) level left ts) := by
  rw [chainRest]
  split
  · exact ⟨hl, h⟩
  · next node hnode =>
    refine (ih.link level ts.tail h.tail).bind ?_
    rintro ⟨right, ts⟩ ⟨hr, hts⟩
    exact ih.chainRest level _ ts (join_placed (operator_joins g.source hnode) hl hr) hts

include ih h in
theorem link_reads (level : Level) : g.Reads (·.Placed g.source) (g.link (n + 1) level ts) := by
  rw [link.eq_def]
  cases level with
  | either => exact ih.chain .both ts h
  | both => exact ih.negation ts h
  | sum => exact ih.chain .product ts h
  | product => exact ih.power ts h

include hg ih h in
theorem negation_reads : g.Reads (·.Placed g.source) (g.negation (n + 1) ts) := by
  rw [negation]
  split
  · refine (ih.negation ts.tail h.tail).bind ?_
    rintro ⟨e, rest⟩ ⟨he, hrest⟩
    have hspan := (h.head hg).inside.join he.span
    exact ⟨⟨⟨⟨he.expr, trivial⟩, hspan⟩, hspan⟩, hrest⟩
  · exact ih.comparison ts h

include ih h in
theorem comparison_reads : g.Reads (·.Placed g.source) (g.comparison (n + 1) ts) := by
  refine (ih.chain .sum ts h).bind ?_
  rintro ⟨left, ts⟩ ⟨hl, hts⟩
  dsimp only
  split
  · exact ⟨hl, hts⟩
  · next f _ =>
    refine (ih.chain .sum ts.tail hts.tail).bind ?_
    rintro ⟨right, ts⟩ ⟨hr, hts⟩
    exact ⟨join_placed (binary_joins g.source f) hl hr, hts⟩

include ih h in
theorem power_reads : g.Reads (·.Placed g.source) (g.power (n + 1) ts) := by
  refine (ih.unary ts h).bind ?_
  rintro ⟨base, ts⟩ ⟨hb, hts⟩
  dsimp only
  split
  · refine (ih.power ts.tail hts.tail).bind ?_
    rintro ⟨exponent, ts⟩ ⟨he, hts⟩
    exact ⟨join_placed (binary_joins g.source _) hb he, hts⟩
  · exact ⟨hb, hts⟩

include hg ih h in
theorem unary_reads : g.Reads (·.Placed g.source) (g.unary (n + 1) ts) := by
  rw [unary]
  split
  · have hminus := (h.head hg).inside
    refine (ih.unary ts.tail h.tail).bind ?_
    rintro ⟨e, rest⟩ ⟨he, hrest⟩
    have hspan := hminus.join he.span
    exact ⟨⟨⟨⟨hminus, he.expr, trivial⟩, hspan⟩, hspan⟩, hrest⟩
  · exact ih.operand ts h

include hg ih h in
theorem operand_reads : g.Reads (·.Placed g.source) (g.operand (n + 1) ts) := by
  have ht := h.head hg
  rw [operand]
  dsimp only
  split
  · refine (ih.chain .either ts.tail h.tail).bind ?_
    rintro ⟨e, ts⟩ ⟨he, hts⟩
    refine (expect_reads hg hts _).bind ?_
    rintro ⟨stop, ts⟩ ⟨hstop, hts⟩
    exact ⟨⟨he.expr, ht.inside.join hstop.inside⟩, hts⟩
  · split
    · refine (ih.arguments _ h.tail.tail).bind ?_
      rintro ⟨args, ts⟩ ⟨hargs, hts⟩
      refine (expect_reads hg hts _).bind ?_
      rintro ⟨stop, ts⟩ ⟨hstop, hts⟩
      exact (callPart_gives ht hargs hstop.inside).bind fun p hp => ⟨hp, hts⟩
    · exact (wordOperand_gives ht).bind fun e he => ⟨⟨he, ht.inside⟩, h.tail⟩
  · exact jsonOperand_reads ht h.tail _
  · exact jsonOperand_reads ht h.tail _
  · exact structuredOperand_reads hg ht h.tail _
  · exact structuredOperand_reads hg ht h.tail _
  · exact reject_reads hg h _ _

include ih h in
theorem arguments_reads : g.Reads (Expr.AllPlaced g.source) (g.arguments (n + 1) ts) := by
  rw [arguments]
  split
  · exact ⟨trivial, h⟩
  · exact ih.argumentList ts h

include ih h in
theorem argumentList_reads : g.Reads (Expr.AllPlaced g.source) (g.argumentList (n + 1) ts) := by
  refine (ih.chain .either ts h).bind ?_
  rintro ⟨e, ts⟩ ⟨he, hts⟩
  dsimp only
  split
  · refine (ih.argumentList ts.tail hts.tail).bind ?_
    rintro ⟨args, ts⟩ ⟨hargs, hts⟩
    exact ⟨⟨he.expr, hargs⟩, hts⟩
  · exact ⟨⟨he.expr, trivial⟩, hts⟩

end

theorem sound (hg : g.Fits) (n : Nat) : g.Sound n := by
  induction n with
  | zero =>
    exact ⟨fun _ _ h => reject_reads hg h _ _, fun _ _ _ _ h => reject_reads hg h _ _,
      fun _ _ h => reject_reads hg h _ _, fun _ h => reject_reads hg h _ _,
      fun _ h => reject_reads hg h _ _, fun _ h => reject_reads hg h _ _,
      fun _ h => reject_reads hg h _ _, fun _ h => reject_reads hg h _ _,
      fun _ h => reject_reads hg h _ _, fun _ h => reject_reads hg h _ _⟩
  | succ n ih =>
    exact ⟨fun level _ h => chain_reads ih h level, fun level _ _ hl h => chainRest_reads ih h level hl,
      fun level _ h => link_reads ih h level, fun _ h => negation_reads hg ih h,
      fun _ h => comparison_reads ih h, fun _ h => power_reads ih h,
      fun _ h => unary_reads hg ih h, fun _ h => operand_reads hg ih h,
      fun _ h => arguments_reads ih h, fun _ h => argumentList_reads ih h⟩

theorem expr_reads (hg : g.Fits) (h : g.AllPlaced ts) :
    g.Reads (·.Placed g.source) (g.expr ts) := (sound hg _).chain .either ts h

end Grammar

end Stencil

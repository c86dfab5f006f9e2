import Stencil.Proofs.Printing.Rank
/-!
# Reading what was written

The grammar reads the symbols of a term as its tree, wherever the style has put parentheses. Chains are
the one difficulty: the rule of a chain reads a term that groups to the left as the beginning of a longer
chain.
-/

namespace Stencil

namespace Grammar

variable {g : Grammar} {s : Style} {t : Term} {rank : Rank} {level : Level} {us rest : List Token}
  {u : Token} {n : Nat}

/-! ## The first symbol -/

theorem keyword?_eq_none (h : u.kind ≠ .word) : keyword? u = none := if_neg h

theorem plainWord_opens {w : PlainWord} (h : u.symbol = ⟨.word, w.text⟩) : Opens rank u := by
  have hkind : u.kind = .word := congrArg Symbol.kind h
  have htext : u.text = w.text := congrArg Symbol.text h
  have hkeyword : keyword? u = none := by rw [keyword?, if_pos hkind, htext, w.notKeyword]
  exact ⟨fun _ => by simp [hkeyword], fun _ => by simp [hkind], by simp [hkind]⟩

theorem literal_opens {l : Literal} (h : u.symbol = ⟨l.kind, l.text⟩) : Opens rank u := by
  have hkind : u.kind = l.kind := congrArg Symbol.kind h
  have hliteral := l.isLiteral
  rw [← hkind] at hliteral
  have hne : u.kind ≠ .word ∧ u.kind ≠ .minus ∧ u.kind ≠ .rightParen := by
    generalize u.kind = kind, l.text.toList = chars at hliteral
    cases hliteral <;> exact ⟨nofun, nofun, nofun⟩
  exact ⟨fun _ => by simp [keyword?_eq_none hne.1], fun _ => hne.2.1, hne.2.2⟩

theorem leftParen_opens (h : u.symbol = ⟨.leftParen, "("⟩) : Opens rank u := by
  have hkind : u.kind = .leftParen := congrArg Symbol.kind h
  exact ⟨fun _ => by simp [keyword?, hkind], fun _ => by simp [hkind], by simp [hkind]⟩

end Grammar

def Operator.keyword? : Operator → Option Keyword
  | .or => some .orWord
  | .and => some .andWord
  | .inside => some .inWord
  | _ => none

theorem Operator.rank_le_left (op : Operator) : op.rank.toNat ≤ op.left.toNat := by
  cases op with
  | arith a => cases a <;> decide
  | relation r => cases r <;> decide
  | _ => decide

open Grammar

theorem symbols_first_of_bare {s : Style} {t : Term} (rank : Rank)
    (h : ∃ y ys, t.bare s = y :: ys ∧ ∀ u : Token, u.symbol = y → Opens t.rank u) :
    ∃ y ys, t.symbols s rank = y :: ys ∧ ∀ u : Token, u.symbol = y → Opens rank u := by
  unfold Term.symbols Style.enclose
  split
  · exact ⟨_, _, rfl, fun u hu => leftParen_opens hu⟩
  · next hwraps =>
    have hle : rank.toNat ≤ t.rank.toNat := by
      rcases Nat.lt_or_ge t.rank.toNat rank.toNat with hlt | hge
      · exact absurd (s.needed rank t hlt) hwraps
      · exact hge
    obtain ⟨y, ys, hbare, hy⟩ := h
    exact ⟨y, ys, hbare, fun u hu => (hy u hu).mono hle⟩

theorem bare_first (s : Style) (t : Term) :
    ∃ y ys, t.bare s = y :: ys ∧ ∀ u : Token, u.symbol = y → Opens t.rank u := by
  cases t with
  | name w =>
    rw [Term.bare]
    exact ⟨_, _, rfl, fun u hu => plainWord_opens hu⟩
  | literal l =>
    rw [Term.bare]
    exact ⟨_, _, rfl, fun u hu => literal_opens hu⟩
  | call w args =>
    rw [Term.bare]
    exact ⟨_, _, rfl, fun u hu => plainWord_opens hu⟩
  | negative t =>
    rw [Term.bare]
    refine ⟨_, _, rfl, fun u hu => ?_⟩
    have hkind : u.kind = .minus := congrArg Symbol.kind hu
    exact ⟨fun _ => by simp [keyword?, hkind], fun hrank => absurd hrank (Nat.lt_irrefl _),
      by simp [hkind]⟩
  | not t =>
    rw [Term.bare]
    refine ⟨_, _, rfl, fun u hu => ?_⟩
    have hkind : u.kind = .word := congrArg Symbol.kind hu
    exact ⟨fun hrank => absurd hrank (Nat.lt_irrefl _), fun _ => by simp [hkind], by simp [hkind]⟩
  | binary op left right =>
    obtain ⟨y, ys, hleft, hy⟩ := symbols_first_of_bare op.left (bare_first s left)
    rw [Term.symbols] at hleft
    rw [Term.bare, hleft]
    exact ⟨y, _, rfl, fun u hu => (hy u hu).mono op.rank_le_left⟩

theorem symbols_first (s : Style) (rank : Rank) (t : Term) :
    ∃ y ys, t.symbols s rank = y :: ys ∧ ∀ u : Token, u.symbol = y → Opens rank u :=
  symbols_first_of_bare rank (bare_first s t)

/-! ## Terms that can be read -/

namespace Grammar

def Begins (g : Grammar) (level : Level) (expected : Option Expr) (rest : List Token) (n used : Nat)
    (x : Except Reject (Read Part)) : Prop :=
  (∃ p m, expected = some p.tree ∧ n ≤ m + used ∧ x = g.chainRest m level p rest) ∨
    (expected = none ∧ ∃ r, x = .error r)

/-- The rule of a rank reads the bare symbols of a term that binds as tightly, and the rule of a chain
reads them as its beginning. Sixteen levels of fuel for a token are enough. -/
structure Readable (g : Grammar) (s : Style) (t : Term) : Prop where
  bare : ∀ {rank us rest n}, us.map Token.symbol = t.bare s → rank.toNat ≤ t.rank.toNat →
    Stops rank (g.head rest) → 16 * us.length + rank.depth ≤ n + 16 →
      Meets Part.tree (t.tree? g.functions) rest (g.read rank n (us ++ rest))
  begins : ∀ {level us rest n}, us.map Token.symbol = t.bare s → t.rank = level.rank →
    Stops level.rank.tighter (g.head rest) → 16 * us.length + level.rank.depth ≤ n + 16 →
      g.Begins level (t.tree? g.functions) rest n us.length (g.chain n level (us ++ rest))

variable {g : Grammar} {s : Style} {t : Term} {rank : Rank} {level : Level} {us rest : List Token}
  {u : Token} {n : Nat}

theorem length_pos_of_first {y : Symbol} {ys : List Symbol} (h : us.map Token.symbol = y :: ys) :
    1 ≤ us.length := by
  have hlength := congrArg List.length h
  simp only [List.length_map, List.length_cons] at hlength
  omega

theorem head_cons (g : Grammar) (u : Token) (ts : List Token) : g.head (u :: ts) = u := rfl

theorem expect_kind {kind : Token.Kind} (h : u.kind = kind) :
    g.expect kind (u :: rest) = .ok (u, rest) := by
  simp [expect, head, h]

theorem begins_of_tighter {expected : Option Expr} {ts : List Token} {used : Nat}
    (h : Meets Part.tree expected rest (g.read level.rank.tighter n ts)) (hused : 1 ≤ used) :
    g.Begins level expected rest (n + 2) used (g.chain (n + 2) level ts) := by
  rw [Grammar.chain, link_eq]
  rcases h with ⟨p, rfl, hread⟩ | ⟨rfl, r, hread⟩
  · exact .inl ⟨p, n + 1, rfl, by omega, by rw [hread]; rfl⟩
  · exact .inr ⟨rfl, r, by rw [hread]; rfl⟩

namespace Readable

theorem enclosed (h : g.Readable s t)
    (hus : us.map Token.symbol = ⟨.leftParen, "("⟩ :: (t.bare s ++ [⟨.rightParen, ")"⟩]))
    (hstop : Stops rank (g.head rest)) (hn : 16 * us.length + rank.depth ≤ n + 16) :
    Meets Part.tree (t.tree? g.functions) rest (g.read rank n (us ++ rest)) := by
  obtain ⟨u, vs, rfl, hu, hvs⟩ := List.map_eq_cons_iff.mp hus
  obtain ⟨inner, closing, rfl, hinner, hclosing⟩ := List.map_eq_append_iff.mp hvs
  obtain ⟨v, _, rfl, hv, hnil⟩ := List.map_eq_cons_iff.mp hclosing
  obtain rfl := List.map_eq_nil_iff.mp hnil
  have hleft : u.kind = .leftParen := congrArg Symbol.kind hu
  have hright : v.kind = .rightParen := congrArg Symbol.kind hv
  simp only [List.length_cons, List.length_append, List.length_nil] at hn
  have hopen : Opens .operand (g.head (u :: (inner ++ [v]) ++ rest)) := leftParen_opens hu
  refine read_looser (k := 16 * (inner.length + 1)) rank.toNat_le hopen hstop ?_ n (by omega)
  intro n hn
  obtain ⟨n, rfl⟩ : ∃ m, n = m + 1 := ⟨n - 1, by simp only [Rank.depth] at hn; omega⟩
  have hread : Meets Part.tree (t.tree? g.functions) (v :: rest)
      (g.read .either n (inner ++ v :: rest)) :=
    h.bare hinner (Rank.le_toNat _) (stops_of_kind (.inl hright))
      (by simp only [Rank.depth] at hn ⊢; omega)
  show Meets _ _ _ (g.operand (n + 1) (u :: (inner ++ [v] ++ rest)))
  rw [operand, List.append_assoc, List.singleton_append]
  simp only [head, hleft, List.tail_cons]
  refine Meets.keep hread (fun p => ?_) (c := fun p => ⟨p.expr, u.span.join v.span⟩) fun _ => rfl
  simp [expect_kind hright]

theorem symbols (h : g.Readable s t) (hus : us.map Token.symbol = t.symbols s rank)
    (hstop : Stops rank (g.head rest)) (hn : 16 * us.length + rank.depth ≤ n + 16) :
    Meets Part.tree (t.tree? g.functions) rest (g.read rank n (us ++ rest)) := by
  unfold Term.symbols Style.enclose at hus
  split at hus
  · exact h.enclosed hus hstop hn
  · next hwraps => exact h.bare hus (Nat.le_of_not_lt (mt (s.needed rank t) hwraps)) hstop hn

theorem chain (h : g.Readable s t) (hus : us.map Token.symbol = t.symbols s level.rank)
    (hstop : Stops level.rank.tighter (g.head rest)) (hn : 16 * us.length + level.rank.depth ≤ n + 16) :
    g.Begins level (t.tree? g.functions) rest n us.length (g.chain n level (us ++ rest)) := by
  have hused : 1 ≤ us.length := by
    obtain ⟨y, ys, hfirst, -⟩ := symbols_first s level.rank t
    exact length_pos_of_first (hus.trans hfirst)
  have hdepth : level.rank.depth = level.rank.tighter.depth + 2 := by cases level <;> rfl
  obtain ⟨n, rfl⟩ : ∃ m, n = m + 2 := ⟨n - 2, by omega⟩
  unfold Term.symbols Style.enclose at hus
  split at hus
  · exact begins_of_tighter (h.enclosed hus hstop (by omega)) hused
  · next hwraps =>
    have hle : level.rank.toNat ≤ t.rank.toNat := Nat.le_of_not_lt (mt (s.needed level.rank t) hwraps)
    by_cases hrank : t.rank = level.rank
    · exact h.begins hus hrank hstop hn
    · have hne : t.rank.toNat ≠ level.rank.toNat := fun heq => hrank (Rank.toNat_inj heq)
      have hnext : level.rank.tighter.toNat = level.rank.toNat + 1 := by cases level <;> rfl
      exact begins_of_tighter (h.bare hus (by omega) hstop (by omega)) hused

end Readable

/-! ## Operands and signs in front -/

theorem bare_of_own (h : ∀ {us rest n}, us.map Token.symbol = t.bare s → Stops t.rank (g.head rest) →
      16 * us.length + t.rank.depth ≤ n + 16 →
        Meets Part.tree (t.tree? g.functions) rest (g.read t.rank n (us ++ rest)))
    (hus : us.map Token.symbol = t.bare s) (hle : rank.toNat ≤ t.rank.toNat)
    (hstop : Stops rank (g.head rest)) (hn : 16 * us.length + rank.depth ≤ n + 16) :
    Meets Part.tree (t.tree? g.functions) rest (g.read rank n (us ++ rest)) := by
  obtain ⟨y, ys, hfirst, hopen⟩ := bare_first s t
  obtain ⟨u, vs, rfl, hu, -⟩ := List.map_eq_cons_iff.mp (hus.trans hfirst)
  have hopens : Opens t.rank (g.head (u :: vs ++ rest)) := hopen u hu
  simp only [List.length_cons] at hn
  refine read_looser (k := 16 * vs.length) hle hopens hstop ?_ n (by omega)
  intro n hn
  exact h hus (hstop.mono hle) (by simp only [List.length_cons]; omega)

theorem readable_of_own (hchain : ∀ level : Level, t.rank ≠ level.rank)
    (h : ∀ {us rest n}, us.map Token.symbol = t.bare s → Stops t.rank (g.head rest) →
      16 * us.length + t.rank.depth ≤ n + 16 →
        Meets Part.tree (t.tree? g.functions) rest (g.read t.rank n (us ++ rest))) :
    g.Readable s t :=
  ⟨bare_of_own h, fun {level} _ _ _ _ hrank => absurd hrank (hchain level)⟩

theorem readable_name (w : PlainWord) : g.Readable s (.name w) := by
  refine readable_of_own (fun level => by cases level <;> exact nofun) ?_
  intro us rest n hus hstop hn
  rw [Term.bare] at hus
  obtain ⟨u, _, rfl, hu, hnil⟩ := List.map_eq_cons_iff.mp hus
  obtain rfl := List.map_eq_nil_iff.mp hnil
  have hkind : u.kind = .word := congrArg Symbol.kind hu
  have htext : u.text = w.text := congrArg Symbol.text hu
  have hkeyword : keyword? u = none := by rw [keyword?, if_pos hkind, htext, w.notKeyword]
  obtain ⟨n, rfl⟩ : ∃ m, n = m + 1 := ⟨n - 1, by simp [Term.rank, Rank.depth] at hn; omega⟩
  refine .inl ⟨⟨.name u.word, u.span⟩, ?_, ?_⟩
  · rw [Term.tree?, Part.tree, Expr.erase, Token.word, htext]
  · show g.operand (n + 1) (u :: rest) = _
    rw [operand]
    simp [head_cons, hkind, hstop.call, wordOperand, hkeyword]

theorem readable_literal (l : Literal) : g.Readable s (.literal l) := by
  refine readable_of_own (fun level => by cases level <;> exact nofun) ?_
  intro us rest n hus hstop hn
  rw [Term.bare] at hus
  obtain ⟨u, _, rfl, hu, hnil⟩ := List.map_eq_cons_iff.mp hus
  obtain rfl := List.map_eq_nil_iff.mp hnil
  have hkind : u.kind = l.kind := congrArg Symbol.kind hu
  have htext : u.text = l.text := congrArg Symbol.text hu
  have hvalue : ∀ what, readJson what u.span u.text = .ok l.value := fun what => by
    rw [readJson, htext, l.reads]
  obtain ⟨n, rfl⟩ : ∃ m, n = m + 1 := ⟨n - 1, by simp [Term.rank, Rank.depth] at hn; omega⟩
  refine .inl ⟨⟨.literal l.value u.span, u.span⟩, ?_, ?_⟩
  · rw [Term.tree?, Part.tree, Expr.erase]
  · have hliteral := l.isLiteral
    rw [← hkind] at hliteral
    show g.operand (n + 1) (u :: rest) = _
    rw [operand]
    generalize htoken : u.kind = kind, l.text.toList = chars at hliteral
    cases hliteral <;> simp [head, htoken, jsonOperand, hvalue]

theorem readable_negative (h : g.Readable s t) : g.Readable s (.negative t) := by
  refine readable_of_own (fun level => by cases level <;> exact nofun) ?_
  intro us rest n hus hstop hn
  rw [Term.bare] at hus
  obtain ⟨u, vs, rfl, hu, hvs⟩ := List.map_eq_cons_iff.mp hus
  have hkind : u.kind = .minus := congrArg Symbol.kind hu
  simp only [List.length_cons, Term.rank, Rank.depth] at hn
  obtain ⟨n, rfl⟩ : ∃ m, n = m + 1 := ⟨n - 1, by omega⟩
  have hread := h.symbols (n := n) hvs hstop (by simp only [Rank.depth]; omega)
  show Meets _ _ _ (g.unary (n + 1) (u :: (vs ++ rest)))
  rw [unary, Term.tree?]
  simp only [head, hkind, if_true, List.tail_cons]
  exact Meets.map hread (c := fun p => ⟨.negative u.span p.expr (u.span.join p.span),
    u.span.join p.span⟩) (fun p => rfl) fun p => rfl

theorem readable_not (h : g.Readable s t) : g.Readable s (.not t) := by
  refine readable_of_own (fun level => by cases level <;> exact nofun) ?_
  intro us rest n hus hstop hn
  rw [Term.bare] at hus
  obtain ⟨u, vs, rfl, hu, hvs⟩ := List.map_eq_cons_iff.mp hus
  have hkind : u.kind = .word := congrArg Symbol.kind hu
  have htext : u.text = "not" := congrArg Symbol.text hu
  have hahead : g.ahead .notWord (u :: (vs ++ rest)) = true := by
    rw [ahead, head, keyword?, if_pos hkind, htext]
    decide
  simp only [List.length_cons, Term.rank, Rank.depth] at hn
  obtain ⟨n, rfl⟩ : ∃ m, n = m + 1 := ⟨n - 1, by omega⟩
  have hread := h.symbols (n := n) hvs hstop (by simp only [Rank.depth]; omega)
  show Meets _ _ _ (g.negation (n + 1) (u :: (vs ++ rest)))
  rw [negation, Term.tree?, if_pos hahead]
  simp only [head, List.tail_cons]
  exact Meets.map hread (c := fun p => ⟨.apply .not [p.expr] (u.span.join p.span),
    u.span.join p.span⟩) (fun p => rfl) fun p => rfl

/-! ## Operators -/

variable {op : Operator} {left right : Term}

theorem erase_node (op : Operator) (a b : Expr) (span : Span) :
    (op.node a b span).erase = op.node a.erase b.erase (.point 0) := by
  cases op <;> rfl

theorem tree_join (op : Operator) (p q : Part) :
    (Part.join op.node p q).tree = op.node p.tree q.tree (.point 0) := erase_node op p.expr q.expr _

theorem operator_keyword (hu : u.symbol = op.symbol) : keyword? u = op.keyword? := by
  have hkind : u.kind = op.symbol.kind := congrArg Symbol.kind hu
  have htext : u.text = op.symbol.text := congrArg Symbol.text hu
  rw [keyword?, hkind, htext]
  cases op with
  | relation r => cases r <;> rfl
  | arith a => cases a <;> rfl
  | _ => decide

theorem operator_stops (hu : u.symbol = op.symbol) : Stops op.rank.tighter u := by
  have hkind : u.kind = op.symbol.kind := congrArg Symbol.kind hu
  have hkeyword := operator_keyword hu
  constructor
  · intro level hlevel
    unfold Level.operator?
    rw [hkind, hkeyword]
    cases op with
    | relation r => cases level <;> cases r <;> rfl
    | arith a => cases level <;> cases a <;> first | rfl | exact absurd hlevel (by decide)
    | _ => cases level <;> first | rfl | exact absurd hlevel (by decide)
  · intro hrank
    unfold comparison?
    rw [hkind, hkeyword]
    cases op with
    | relation r => cases r <;> exact absurd hrank (by decide)
    | arith a => cases a <;> rfl
    | _ => first | rfl | exact absurd hrank (by decide)
  · intro hrank
    rw [hkind]
    cases op with
    | relation r => cases r <;> exact nofun
    | arith a => cases a <;> first | exact absurd hrank (by decide) | exact nofun
    | _ => exact nofun
  · rw [hkind]
    cases op with
    | relation r => cases r <;> exact nofun
    | arith a => cases a <;> exact nofun
    | _ => exact nofun

theorem operator_node (hu : u.symbol = op.symbol) (hop : op.rank = level.rank) :
    level.operator? u = some op.node := by
  have hkind : u.kind = op.symbol.kind := congrArg Symbol.kind hu
  have hkeyword := operator_keyword hu
  unfold Level.operator?
  rw [hkind, hkeyword]
  cases op with
  | relation r => cases level <;> cases hop
  | arith a => cases level <;> cases a <;> first | rfl | cases hop
  | _ => cases level <;> first | rfl | cases hop

theorem read_level (g : Grammar) (level : Level) (n : Nat) (ts : List Token) :
    g.read level.rank n ts = g.chain n level ts := by
  cases level <;> rfl

theorem left_eq (hop : op.rank = level.rank) : op.left = level.rank ∧ op.right = level.rank.tighter := by
  cases op with
  | relation r => cases level <;> cases hop
  | arith a => cases level <;> cases a <;> first | exact ⟨rfl, rfl⟩ | cases hop
  | _ => cases level <;> first | exact ⟨rfl, rfl⟩ | cases hop

theorem begins_binary (hl : g.Readable s left) (hr : g.Readable s right) (hop : op.rank = level.rank)
    (hus : us.map Token.symbol = (Term.binary op left right).bare s)
    (hstop : Stops level.rank.tighter (g.head rest)) (hn : 16 * us.length + level.rank.depth ≤ n + 16) :
    g.Begins level ((Term.binary op left right).tree? g.functions) rest n us.length
      (g.chain n level (us ++ rest)) := by
  rw [Term.bare] at hus
  obtain ⟨vs, ws, rfl, hvs, hws⟩ := List.map_eq_append_iff.mp hus
  obtain ⟨u, ws, rfl, hu, hws⟩ := List.map_eq_cons_iff.mp hws
  obtain ⟨hleft, hright⟩ := left_eq hop
  rw [hleft] at hvs
  rw [hright] at hws
  simp only [List.length_append, List.length_cons] at hn ⊢
  have hdepth : level.rank.depth = level.rank.tighter.depth + 2 := by cases level <;> rfl
  have hbegins : g.Begins level (left.tree? g.functions) (u :: (ws ++ rest)) n vs.length
      (g.chain n level (vs ++ u :: (ws ++ rest))) :=
    hl.chain hvs (hop ▸ operator_stops hu) (by omega)
  rw [List.append_assoc, List.cons_append, Term.tree?]
  rcases hbegins with ⟨p, m, hp, hm, hread⟩ | ⟨hnone, r, hread⟩
  · obtain ⟨m, rfl⟩ : ∃ k, m = k + 2 := ⟨m - 2, by omega⟩
    have hstep : g.chainRest (m + 2) level p (u :: (ws ++ rest)) =
        (do let r ← g.read level.rank.tighter m (ws ++ rest)
            g.chainRest (m + 1) level (Part.join op.node p r.1) r.2) := by
      rw [chainRest, head_cons, operator_node hu hop, ← link_eq]
      rfl
    rw [hp, hread, hstep]
    rcases hr.symbols (n := m) hws hstop (by omega) with ⟨q, hq, hqread⟩ | ⟨hnone, r, hqread⟩
    · refine .inl ⟨Part.join op.node p q, m + 1, ?_, by omega, by rw [hqread]; rfl⟩
      rw [hq, tree_join]
      rfl
    · exact .inr ⟨by rw [hnone]; rfl, r, by rw [hqread]; rfl⟩
  · exact .inr ⟨by rw [hnone]; rfl, r, hread⟩

theorem readable_chain (level : Level) (hl : g.Readable s left) (hr : g.Readable s right)
    (hop : op.rank = level.rank) : g.Readable s (.binary op left right) := by
  constructor
  · refine bare_of_own ?_
    intro us rest n hus hstop hn
    have hrank : (Term.binary op left right).rank = level.rank := hop
    rw [hrank] at hstop hn ⊢
    have hnext : level.rank.toNat ≤ level.rank.tighter.toNat := by cases level <;> decide
    rw [read_level]
    have hpos : 5 ≤ level.rank.depth := by cases level <;> decide
    have hused : 1 ≤ us.length := by
      obtain ⟨y, ys, hfirst, -⟩ := bare_first s (.binary op left right)
      exact length_pos_of_first (hus.trans hfirst)
    rcases begins_binary hl hr hop hus (hstop.mono hnext) hn with
      ⟨p, m, hp, hm, hread⟩ | ⟨hnone, r, hread⟩
    · obtain ⟨m, rfl⟩ : ∃ k, m = k + 1 := ⟨m - 1, by omega⟩
      exact .inl ⟨p, hp, by rw [hread, chainRest_stops hstop]⟩
    · exact .inr ⟨hnone, r, hread⟩
  · intro level' us rest n hus hrank hstop hn
    exact begins_binary hl hr hrank hus hstop hn

theorem operator_comparison (hu : u.symbol = op.symbol) (hop : op.rank = .comparison) :
    op.left = .sum ∧ op.right = .sum ∧ ∃ f, comparison? u = some f ∧ op.node = .binary f := by
  have hkind : u.kind = op.symbol.kind := congrArg Symbol.kind hu
  have hkeyword := operator_keyword hu
  unfold comparison?
  rw [hkind, hkeyword]
  cases op with
  | inside => exact ⟨rfl, rfl, _, rfl, rfl⟩
  | relation r => cases r <;> exact ⟨rfl, rfl, _, rfl, rfl⟩
  | arith a => cases a <;> cases hop
  | _ => cases hop

theorem readable_comparison (hl : g.Readable s left) (hr : g.Readable s right)
    (hop : op.rank = .comparison) : g.Readable s (.binary op left right) := by
  have hrank : (Term.binary op left right).rank = .comparison := hop
  refine readable_of_own (fun level => by rw [hrank]; cases level <;> exact nofun) ?_
  rw [hrank]
  intro us rest n hus hstop hn
  rw [Term.bare] at hus
  obtain ⟨vs, ws, rfl, hvs, hws⟩ := List.map_eq_append_iff.mp hus
  obtain ⟨u, ws, rfl, hu, hws⟩ := List.map_eq_cons_iff.mp hws
  obtain ⟨hleft, hright, f, hf, hnode⟩ := operator_comparison hu hop
  rw [hleft] at hvs
  rw [hright] at hws
  simp only [List.length_append, List.length_cons, Rank.depth] at hn
  obtain ⟨n, rfl⟩ : ∃ m, n = m + 1 := ⟨n - 1, by omega⟩
  have hstops := operator_stops hu
  rw [hop] at hstops
  have hlread : Meets Part.tree (left.tree? g.functions) (u :: (ws ++ rest))
      (g.read .sum n (vs ++ u :: (ws ++ rest))) :=
    hl.symbols hvs hstops (by simp only [Rank.depth]; omega)
  have hrread := hr.symbols (n := n) hws (hstop.mono (by decide)) (by simp only [Rank.depth]; omega)
  show Meets _ _ _ (g.comparison (n + 1) _)
  rw [comparison, List.append_assoc, List.cons_append, Term.tree?]
  refine hlread.bind fun p => ?_
  simp only [head_cons, hf, List.tail_cons]
  exact hrread.map (c := fun q => Part.join op.node p q) (fun q => by rw [hnode]; rfl) fun q =>
    tree_join op p q

theorem readable_power (hl : g.Readable s left) (hr : g.Readable s right) :
    g.Readable s (.binary (.arith .pow) left right) := by
  refine readable_of_own (fun level => by cases level <;> exact nofun) ?_
  intro us rest n hus hstop hn
  rw [Term.bare] at hus
  obtain ⟨vs, ws, rfl, hvs, hws⟩ := List.map_eq_append_iff.mp hus
  obtain ⟨u, ws, rfl, hu, hws⟩ := List.map_eq_cons_iff.mp hws
  have hkind : u.kind = .caret := congrArg Symbol.kind hu
  simp only [List.length_append, List.length_cons, Term.rank, Operator.rank, Rank.depth] at hn
  obtain ⟨n, rfl⟩ : ∃ m, n = m + 1 := ⟨n - 1, by omega⟩
  have hlread : Meets Part.tree (left.tree? g.functions) (u :: (ws ++ rest))
      (g.read .unary n (vs ++ u :: (ws ++ rest))) :=
    hl.symbols hvs (operator_stops hu) (by simp only [Rank.depth]; omega)
  have hrread := hr.symbols (n := n) hws hstop (by simp only [Operator.right, Rank.depth]; omega)
  show Meets _ _ _ (g.power (n + 1) _)
  rw [power, List.append_assoc, List.cons_append, Term.tree?]
  refine hlread.bind fun p => ?_
  simp only [head_cons, hkind, if_true, List.tail_cons]
  exact hrread.map (c := fun q => Part.join (Operator.arith .pow).node p q) (fun q => rfl) fun q =>
    tree_join _ p q

theorem readable_binary (op : Operator) (hl : g.Readable s left) (hr : g.Readable s right) :
    g.Readable s (.binary op left right) := by
  cases op with
  | or => exact readable_chain .either hl hr rfl
  | and => exact readable_chain .both hl hr rfl
  | inside => exact readable_comparison hl hr rfl
  | relation r => exact readable_comparison hl hr rfl
  | arith a =>
    cases a with
    | add => exact readable_chain .sum hl hr rfl
    | sub => exact readable_chain .sum hl hr rfl
    | mul => exact readable_chain .product hl hr rfl
    | div => exact readable_chain .product hl hr rfl
    | rem => exact readable_chain .product hl hr rfl
    | pow => exact readable_power hl hr

/-! ## Calls -/

theorem callee_erase (callee : Callee) (w : Word) (es : List Expr) (span : Span) :
    (callee.node w es span).erase = callee.node ⟨w.text, .point 0⟩ (Expr.eraseArgs es) (.point 0) := by
  cases callee with
  | builtin f => rfl
  | callback => rfl
  | defined => rcases es with _ | ⟨e, _ | ⟨e', es⟩⟩ <;> rfl
  | fallback => rcases es with _ | ⟨e, _ | ⟨e', _ | ⟨e'', es⟩⟩⟩ <;> rfl

theorem argumentList_symbols {args : List Term} (h : ∀ t ∈ args, g.Readable s t) (hne : args ≠ [])
    (hus : us.map Token.symbol = Term.bareArgs s args) (hu : u.kind = .rightParen)
    (hn : 16 * us.length + 14 ≤ n + 16) :
    Meets Expr.eraseArgs (Term.trees? g.functions args) (u :: rest)
      (g.argumentList n (us ++ u :: rest)) := by
  induction args generalizing us n with
  | nil => exact absurd rfl hne
  | cons t args ih =>
    rw [List.forall_mem_cons] at h
    cases args with
    | nil =>
      rw [Term.bareArgs] at hus
      have hused : 1 ≤ us.length := by
        obtain ⟨y, ys, hfirst, -⟩ := symbols_first s .either t
        exact length_pos_of_first (hus.trans hfirst)
      obtain ⟨n, rfl⟩ : ∃ m, n = m + 1 := ⟨n - 1, by omega⟩
      have hread : Meets Part.tree (t.tree? g.functions) (u :: rest)
          (g.read .either n (us ++ u :: rest)) :=
        h.1.symbols hus (stops_of_kind (.inl hu)) (by simp only [Rank.depth]; omega)
      rw [argumentList, Term.trees?]
      refine hread.bind fun p => .inl ⟨[p.expr], rfl, ?_⟩
      simp [head_cons, hu]
    | cons t' args =>
      rw [Term.bareArgs_cons] at hus
      obtain ⟨vs, ws, rfl, hvs, hws⟩ := List.map_eq_append_iff.mp hus
      obtain ⟨c, ws, rfl, hc, hws⟩ := List.map_eq_cons_iff.mp hws
      have hcomma : c.kind = .comma := congrArg Symbol.kind hc
      simp only [List.length_append, List.length_cons] at hn
      obtain ⟨n, rfl⟩ : ∃ m, n = m + 1 := ⟨n - 1, by omega⟩
      have hread : Meets Part.tree (t.tree? g.functions) (c :: (ws ++ u :: rest))
          (g.read .either n (vs ++ c :: (ws ++ u :: rest))) :=
        h.1.symbols hvs (stops_of_kind (.inr (.inl hcomma))) (by simp only [Rank.depth]; omega)
      have hargs := ih h.2 (List.cons_ne_nil _ _) (n := n) hws (by omega)
      rw [argumentList, List.append_assoc, List.cons_append, Term.trees?]
      refine hread.bind fun p => ?_
      simp only [head_cons, hcomma, if_true, List.tail_cons]
      exact hargs.map (c := fun es => p.expr :: es) (fun es => rfl) fun es => rfl

theorem arguments_symbols {args : List Term} (h : ∀ t ∈ args, g.Readable s t)
    (hus : us.map Token.symbol = Term.bareArgs s args) (hu : u.kind = .rightParen)
    (hn : 16 * us.length + 15 ≤ n + 16) (hpos : 1 ≤ n) :
    Meets Expr.eraseArgs (Term.trees? g.functions args) (u :: rest)
      (g.arguments n (us ++ u :: rest)) := by
  obtain ⟨n, rfl⟩ : ∃ m, n = m + 1 := ⟨n - 1, by omega⟩
  rw [arguments]
  cases args with
  | nil =>
    rw [Term.bareArgs] at hus
    obtain rfl := List.map_eq_nil_iff.mp hus
    rw [List.nil_append, head_cons, if_pos hu]
    exact .inl ⟨[], rfl, rfl⟩
  | cons t args =>
    obtain ⟨y, ys, hfirst, hopen⟩ : ∃ y ys, Term.bareArgs s (t :: args) = y :: ys ∧
        ∀ v : Token, v.symbol = y → Opens .either v := by
      obtain ⟨y, ys, hfirst, hopen⟩ := symbols_first s .either t
      rw [Term.symbols] at hfirst
      cases args with
      | nil => exact ⟨y, ys, by rw [Term.bareArgs, hfirst], hopen⟩
      | cons t' args => exact ⟨y, _, by rw [Term.bareArgs_cons, hfirst]; rfl, hopen⟩
    obtain ⟨v, vs, rfl, hv, -⟩ := List.map_eq_cons_iff.mp (hus.trans hfirst)
    rw [List.cons_append, head_cons, if_neg (hopen v hv).arguments]
    exact argumentList_symbols h (List.cons_ne_nil _ _) hus hu (by omega)

theorem readable_call (w : PlainWord) {args : List Term} (h : ∀ t ∈ args, g.Readable s t) :
    g.Readable s (.call w args) := by
  refine readable_of_own (fun level => by cases level <;> exact nofun) ?_
  intro us rest n hus hstop hn
  rw [Term.bare] at hus
  obtain ⟨u, vs, rfl, hu, hvs⟩ := List.map_eq_cons_iff.mp hus
  obtain ⟨v, vs, rfl, hv, hvs⟩ := List.map_eq_cons_iff.mp hvs
  obtain ⟨ws, closing, rfl, hws, hclosing⟩ := List.map_eq_append_iff.mp hvs
  obtain ⟨x, _, rfl, hx, hnil⟩ := List.map_eq_cons_iff.mp hclosing
  obtain rfl := List.map_eq_nil_iff.mp hnil
  have hkind : u.kind = .word := congrArg Symbol.kind hu
  have htext : u.text = w.text := congrArg Symbol.text hu
  have hleft : v.kind = .leftParen := congrArg Symbol.kind hv
  have hright : x.kind = .rightParen := congrArg Symbol.kind hx
  simp only [List.length_cons, List.length_append, List.length_nil, Term.rank, Rank.depth] at hn
  obtain ⟨n, rfl⟩ : ∃ m, n = m + 1 := ⟨n - 1, by omega⟩
  have hargs : Meets Expr.eraseArgs (Term.trees? g.functions args) (x :: rest)
      (g.arguments n (ws ++ x :: rest)) :=
    arguments_symbols h hws hright (by omega) (by omega)
  show Meets _ _ _ (g.operand (n + 1) (u :: v :: (ws ++ [x] ++ rest)))
  rw [operand, List.append_assoc, List.singleton_append, Term.tree?]
  simp only [head_cons, hkind, hleft, if_true, List.tail_cons]
  refine hargs.bind fun es => ?_
  simp only [expect_kind hright, except_ok_bind, Expr.length_eraseArgs, callPart, htext]
  cases Callee.resolve g.functions w.text es.length with
  | error fault => exact .inr ⟨rfl, _, rfl⟩
  | ok callee =>
    refine .inl ⟨⟨callee.node u.word es (u.span.join x.span), u.span.join x.span⟩, ?_, rfl⟩
    rw [Part.tree, callee_erase, Token.word, htext]

/-! ## All terms -/

mutual

theorem readable (g : Grammar) (s : Style) : ∀ t : Term, g.Readable s t
  | .name w => readable_name w
  | .literal l => readable_literal l
  | .call w args => readable_call w (readableArgs g s args)
  | .negative t => readable_negative (readable g s t)
  | .not t => readable_not (readable g s t)
  | .binary op left right => readable_binary op (readable g s left) (readable g s right)

theorem readableArgs (g : Grammar) (s : Style) : ∀ args : List Term, ∀ t ∈ args, g.Readable s t
  | [] => nofun
  | t :: rest => List.forall_mem_cons.mpr ⟨readable g s t, readableArgs g s rest⟩

end

theorem expr_symbols (g : Grammar) (s : Style) (t : Term)
    (hus : us.map Token.symbol = t.symbols s .either) (hstop : Stops .either (g.head rest)) :
    Meets Part.tree (t.tree? g.functions) rest (g.expr (us ++ rest)) := by
  refine (readable g s t).symbols hus hstop ?_
  simp only [fuel, List.length_append, Rank.depth]
  omega

end Grammar

end Stencil

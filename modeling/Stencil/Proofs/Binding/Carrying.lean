import Stencil.Proofs.Binding.Chunks
/-!
# Every rule carries over

What a rule of the grammar reads from some chunks it reads from them in any other source, if that has the
same callbacks. The fuel that this takes depends on the number of chunks only.
-/

namespace Stencil

open Token

/-- The same tree, at other places. -/
def Part.Same (p p' : Part) : Prop := p.tree = p'.tree

namespace Grammar

/-! ## Tokens -/

variable {g g' : Grammar} {n need : Nat} {ι : Type} {I : ι → Prop} {t t' : Token} {ts : List Token}

theorem cons_of_head {kind : Kind} (h : (g.head ts).kind = kind) (hkind : kind ≠ .endOfInput) :
    ∃ t us, ts = t :: us ∧ t.kind = kind := by
  cases ts with
  | nil => exact absurd h.symm hkind
  | cons t us => exact ⟨t, us, rfl, h⟩

theorem cons_of_keyword {word : Keyword} (h : keyword? (g.head ts) = some word) :
    ∃ t us, ts = t :: us ∧ t.kind = .word ∧ keyword? t = some word := by
  have hkind : (g.head ts).kind = .word := by
    unfold keyword? at h
    split at h
    · assumption
    · cases h
  obtain ⟨t, us, rfl, ht⟩ := cons_of_head hkind (by decide)
  exact ⟨t, us, rfl, ht, h⟩

theorem kind_of_symbol (h : t.Same t') : t.kind = t'.kind :=
  congrArg Symbol.kind h

theorem text_of_symbol (h : t.Same t') : t.text = t'.text :=
  congrArg Symbol.text h

theorem operator_cases {level : Level} {node : Expr → Expr → Span → Expr}
    (h : level.operator? t = some node) :
    (isSingle t.kind ∧ t.kind ≠ .endOfInput) ∧ ∀ {a a' b b' : Expr} (s s' : Span),
      a.erase = a'.erase → b.erase = b'.erase → (node a b s).erase = (node a' b' s').erase := by
  have hword : ∀ {word : Keyword}, keyword? t = some word → t.kind = .word := by
    intro word hw
    unfold keyword? at hw
    split at hw
    · assumption
    · cases hw
  unfold Level.operator? at h
  split at h
  all_goals first
    | cases h; done
    | next hk =>
      obtain rfl := Option.some.inj h
      refine ⟨?_, fun s s' ha hb => ?_⟩
      · first
          | rw [hword hk]; decide
          | rw [hk]; decide
      · simp only [Expr.erase, Expr.binary, Expr.eraseArgs, ha, hb]

theorem comparison_cases {f : Builtin} (h : comparison? t = some f) :
    isSingle t.kind ∧ t.kind ≠ .endOfInput := by
  unfold comparison? keyword? at h
  cases hkind : t.kind <;> simp [hkind, isSingle] at h ⊢

theorem expect_carries (I : ι → Prop) (kind : Kind) (hsingle : isSingle kind)
    (hkind : kind ≠ .endOfInput) (ts : List Token) : Carries g g' need 1 I Token.Same ts (g.expect kind ts)
      fun _ _ us => g'.expect kind us := by
  unfold expect
  split
  · next hhead =>
    obtain ⟨t, us, rfl, rfl⟩ := cons_of_head hhead hkind
    have hok : Carries g g' need 0 (Along I Token.Same t) Token.Same us (.ok (t, us))
        fun i _ vs => .ok (i.2, vs) := .ok fun i _ _ hi => ⟨i.2, rfl, hi.2⟩
    refine .cons hsingle hok (Nat.le_add_right _ _) ?_
    intro i k t' us _ hsymbol
    rw [head_cons, if_pos (kind_of_symbol hsymbol).symm]
    rfl
  · exact .error

/-! ## Arrays and objects -/

theorem skipBalanced_cases {wanted : Kind} {depth : Nat} {stop : Span} {rest : List Token}
    (h : g.skipBalanced wanted depth ts = .ok (stop, rest)) :
    ∃ us u, ts = us ++ u :: rest ∧ stop = u.span ∧ (∀ s ∈ us, ∀ kind, s.kind ≠ .closing kind) ∧
      (u.kind = .rightBracket ∨ u.kind = .rightBrace) := by
  induction ts generalizing depth with
  | nil => cases h
  | cons t ts ih =>
    have hlater : ∀ {depth}, (∀ kind, t.kind ≠ .closing kind) →
        g.skipBalanced wanted depth ts = .ok (stop, rest) →
        ∃ us u, t :: ts = us ++ u :: rest ∧ stop = u.span ∧
          (∀ s ∈ us, ∀ kind, s.kind ≠ .closing kind) ∧
          (u.kind = .rightBracket ∨ u.kind = .rightBrace) := by
      intro depth ht h
      obtain ⟨us, u, rfl, hstop, hus, hu⟩ := ih h
      exact ⟨t :: us, u, rfl, hstop, List.forall_mem_cons.mpr ⟨ht, hus⟩, hu⟩
    have hkind : ∀ {kind : Kind}, t.kind = kind → (∀ tag, kind ≠ .closing tag) →
        ∀ tag, t.kind ≠ .closing tag := by
      rintro _ rfl htag
      exact htag
    unfold skipBalanced at h
    split at h
    · next ht => exact hlater (hkind ht nofun) h
    · next ht => exact hlater (hkind ht nofun) h
    · next ht =>
      split at h
      · cases h
        exact ⟨[], t, rfl, rfl, List.forall_mem_nil _, .inl ht⟩
      · exact hlater (hkind ht nofun) h
    · next ht =>
      split at h
      · cases h
        exact ⟨[], t, rfl, rfl, List.forall_mem_nil _, .inr ht⟩
      · exact hlater (hkind ht nofun) h
    · cases h
    · cases h
    · next hclosing => exact hlater hclosing h

theorem structured_carries (wanted : Kind) (ht : t.kind = .leftBracket ∨ t.kind = .leftBrace) :
    Carries g g' need 1 I Part.Same (t :: ts) (g.structuredOperand wanted t ts)
      fun _ _ us => g'.structuredOperand wanted (g'.head us) us.tail := by
  intro p rest hread
  unfold structuredOperand at hread
  cases hskip : g.skipBalanced wanted 0 ts with
  | error r =>
    rw [hskip] at hread
    cases hread
  | ok r =>
    obtain ⟨stop, vs⟩ := r
    rw [hskip, except_ok_bind] at hread
    dsimp only at hread
    obtain ⟨us, u, rfl, rfl, hus, hu⟩ := skipBalanced_cases hskip
    cases hvalue : g.readSlice (t.span.join u.span) with
    | error r =>
      rw [hvalue] at hread
      cases hread
    | ok v =>
      rw [hvalue] at hread
      cases hread
      refine ⟨[.literal t (us ++ [u]) v], by simp [Chunk.tokens], Nat.le_refl _,
        List.forall_mem_singleton.mpr (.literal ht hus hu hvalue), ?_⟩
      rintro i - n - _ rest' (_ | ⟨hmoved, _ | _⟩) -
      cases hmoved with
      | literal _ _ hmoved =>
        obtain ⟨span, hspan⟩ := hmoved wanted rest'
        refine ⟨⟨.literal v span, span⟩, ?_, rfl⟩
        simpa [Chunk.tokens, head_cons] using hspan

/-! ## The rules -/

def SameArgs (es es' : List Expr) : Prop := Expr.eraseArgs es = Expr.eraseArgs es'

theorem sameArgs_cons {p p' : Part} {es es' : List Expr} (hp : p.Same p') (hes : SameArgs es es') :
    SameArgs (p.expr :: es) (p'.expr :: es') := by
  unfold SameArgs at hes ⊢
  rw [Expr.eraseArgs, Expr.eraseArgs, hes, show p.expr.erase = p'.expr.erase from hp]

theorem callPart_same (hfunctions : g'.functions = g.functions) {args args' : List Expr}
    (ht : t.text = t'.text) (hargs : SameArgs args args') {stop : Span} {p : Part}
    (h : g.callPart t args stop = .ok p) (stop' : Span) :
    ∃ p', g'.callPart t' args' stop' = .ok p' ∧ p.Same p' := by
  unfold callPart at h ⊢
  rw [hfunctions, ← ht, ← Expr.length_of_eraseArgs hargs]
  cases hcallee : Callee.resolve g.functions t.text args.length with
  | error fault =>
    rw [hcallee] at h
    cases h
  | ok callee =>
    rw [hcallee] at h
    obtain rfl := Except.ok.inj h
    refine ⟨_, rfl, ?_⟩
    show Expr.erase _ = Expr.erase _
    rw [callee_erase, callee_erase, show Expr.eraseArgs args = _ from hargs, Token.word, Token.word, ht]

/-- Every rule carries over with so much fuel. -/
structure AllCarry (g g' : Grammar) (n : Nat) : Prop where
  read : ∀ {ι : Type} (I : ι → Prop) rank ts, Carries g g' rank.depth 1 I Part.Same ts
    (g.read rank n ts) fun _ m us => g'.read rank m us
  link : ∀ {ι : Type} (I : ι → Prop) level ts,
    Carries g g' (level.rank.tighter.depth + 1) 1 I Part.Same ts (g.link n level ts)
      fun _ m us => g'.link m level us
  chainRest : ∀ {ι : Type} (I : ι → Prop) level left (left' : ι → Part),
    (∀ i, I i → left.Same (left' i)) → ∀ ts, Carries g g' 17 0 I Part.Same ts (g.chainRest n level left ts)
      fun i m us => g'.chainRest m level (left' i) us
  arguments : ∀ {ι : Type} (I : ι → Prop) ts, Carries g g' 17 0 I SameArgs ts (g.arguments n ts)
    fun _ m us => g'.arguments m us
  argumentList : ∀ {ι : Type} (I : ι → Prop) ts, Carries g g' 14 1 I SameArgs ts (g.argumentList n ts)
    fun _ m us => g'.argumentList m us

theorem depth_chain (level : Level) : level.rank.depth = level.rank.tighter.depth + 2 := by
  cases level <;> rfl

theorem chain_carries (h : AllCarry g g' n) (level : Level) (ts : List Token) :
    Carries g g' level.rank.depth 1 I Part.Same ts (g.chain (n + 1) level ts)
      fun _ m us => g'.chain m level us := by
  have hdepth := depth_chain level
  rw [chain]
  have hlater := (h.link I level ts).bind (fun r => g.chainRest n level r.1 r.2)
    (fun _ m r => g'.chainRest m level r.1 r.2)
    (fun left us => h.chainRest (Along I Part.Same left) level left Prod.snd (fun i hi => hi.2) us)
    (by omega)
  exact hlater.rule (by omega) (by omega) fun _ _ _ _ _ => by rw [chain]

theorem link_carries (h : AllCarry g g' n) (level : Level) (ts : List Token) :
    Carries g g' (level.rank.tighter.depth + 1) 1 I Part.Same ts (g.link (n + 1) level ts)
      fun _ m us => g'.link m level us := by
  rw [link_eq]
  exact (h.read I level.rank.tighter ts).rule (Nat.le_refl _) (by omega)
    fun _ _ _ _ _ => link_eq g' _ level _

theorem join_same {node : Expr → Expr → Span → Expr} {p p' q q' : Part}
    (hnode : ∀ {a a' b b' : Expr} (s s' : Span), a.erase = a'.erase → b.erase = b'.erase →
      (node a b s).erase = (node a' b' s').erase) (hp : p.Same p') (hq : q.Same q') :
    (Part.join node p q).Same (Part.join node p' q') := hnode _ _ hp hq

theorem chainRest_carries (h : AllCarry g g' n) (level : Level) {left : Part} {left' : ι → Part}
    (hleft : ∀ i, I i → left.Same (left' i)) (ts : List Token) :
    Carries g g' 17 0 I Part.Same ts (g.chainRest (n + 1) level left ts)
      fun i m us => g'.chainRest m level (left' i) us := by
  rw [chainRest]
  cases hoperator : level.operator? (g.head ts) with
  | none =>
    have hok : Carries g g' 16 0 I Part.Same ts (.ok (left, ts)) fun i _ us => .ok (left' i, us) :=
      .ok fun i _ _ hi => ⟨left' i, rfl, hleft i hi⟩
    refine hok.rule (Nat.le_refl _) (Nat.le_refl _) fun i m us _ hlike => ?_
    rw [chainRest, ← hlike.operator level, hoperator]
  | some node =>
    obtain ⟨⟨hsingle, hkind⟩, hnode⟩ := operator_cases hoperator
    obtain ⟨t, us, rfl, -⟩ := cons_of_head rfl hkind
    have hdepth := depth_chain level
    have hlater := (h.link (Along I Token.Same t) level us).bind
      (fun r => g.chainRest n level (Part.join node left r.1) r.2)
      (fun i m r => g'.chainRest m level (Part.join node (left' i.1) r.1) r.2)
      (fun right vs => h.chainRest (Along (Along I Token.Same t) Part.Same right) level _
        (fun i => Part.join node (left' i.1.1) i.2)
        (fun i hi => join_same hnode (hleft i.1.1 hi.1.1) hi.2) vs) (by omega)
    have hcons : Carries g g' 16 1 I Part.Same (t :: us)
        (g.link n level us >>= fun r => g.chainRest n level (Part.join node left r.1) r.2)
        fun i m vs => g'.link m level vs.tail >>= fun r =>
          g'.chainRest m level (Part.join node (left' i) r.1) r.2 :=
      .cons hsingle hlater (by cases level <;> decide) fun i m t' vs _ _ => rfl
    refine (hcons.rule (Nat.le_refl _) (by decide) fun i m vs _ hlike => ?_).weaken (Nat.le_refl _)
      (Nat.zero_le _)
    rw [chainRest, ← hlike.operator level, hoperator]

theorem ahead_like {u u' : List Token} (h : Like (g.head u) (g'.head u')) (word : Keyword) :
    g.ahead word u = g'.ahead word u' := by
  rw [ahead, ahead, h.keyword]

def notPart (t : Token) (p : Part) : Part :=
  ⟨.apply .not [p.expr] (t.span.join p.span), t.span.join p.span⟩

def negativePart (t : Token) (p : Part) : Part :=
  ⟨.negative t.span p.expr (t.span.join p.span), t.span.join p.span⟩

theorem notPart_same (t t' : Token) {p p' : Part} (h : p.Same p') :
    (notPart t p).Same (notPart t' p') := by
  show Expr.erase _ = Expr.erase _
  simp only [notPart, Expr.erase, Expr.eraseArgs, show p.expr.erase = p'.expr.erase from h]

theorem negativePart_same (t t' : Token) {p p' : Part} (h : p.Same p') :
    (negativePart t p).Same (negativePart t' p') := by
  show Expr.erase _ = Expr.erase _
  simp only [negativePart, Expr.negative, Expr.binary, Expr.erase, Expr.eraseArgs,
    show p.expr.erase = p'.expr.erase from h]

theorem binary_same (f : Builtin) {a a' b b' : Expr} (s s' : Span) (ha : a.erase = a'.erase)
    (hb : b.erase = b'.erase) : (Expr.binary f a b s).erase = (Expr.binary f a' b' s').erase := by
  simp only [Expr.binary, Expr.erase, Expr.eraseArgs, ha, hb]

theorem negation_carries (h : AllCarry g g' n) (ts : List Token) :
    Carries g g' 9 1 I Part.Same ts (g.negation (n + 1) ts) fun _ m us => g'.negation m us := by
  rw [negation]
  split
  · next hahead =>
    obtain ⟨t, us, rfl, hkind, -⟩ := cons_of_keyword (eq_of_beq hahead)
    have hlater := (h.read (Along I Token.Same t) .negation us).map (notPart t) (fun i => notPart i.2)
      fun i _ _ _ hp => notPart_same t i.2 hp
    have hcons : Carries g g' 8 1 I Part.Same (t :: us) _ fun _ m vs =>
        g'.negation m vs.tail >>= fun r => .ok (notPart (g'.head vs) r.1, r.2) :=
      .cons (by rw [hkind]; rfl) hlater (by decide) fun i m t' vs _ _ => rfl
    refine hcons.rule (Nat.le_refl _) (by decide) fun i m vs _ hlike => ?_
    rw [negation, if_pos ((ahead_like hlike _).symm.trans hahead)]
    rfl
  · next hahead =>
    refine (h.read I .comparison ts).rule (by decide) (by decide) fun i m vs _ hlike => ?_
    rw [negation, if_neg (by rwa [← ahead_like hlike])]
    rfl

def comparisonRest (g : Grammar) (n : Nat) (left : Part) (ts : List Token) :
    Except Reject (Read Part) :=
  match comparison? (g.head ts) with
  | none => .ok (left, ts)
  | some f => g.chain n .sum ts.tail >>= fun r => .ok (Part.join (.binary f) left r.1, r.2)

theorem comparison_eq (g : Grammar) (n : Nat) (ts : List Token) :
    g.comparison (n + 1) ts = g.chain n .sum ts >>= fun r => g.comparisonRest n r.1 r.2 := by
  rw [comparison]
  rfl

theorem comparisonRest_carries (h : AllCarry g g' n) {left : Part} {left' : ι → Part}
    (hleft : ∀ i, I i → left.Same (left' i)) (ts : List Token) :
    Carries g g' 7 0 I Part.Same ts (g.comparisonRest n left ts)
      fun i m us => g'.comparisonRest m (left' i) us := by
  rw [comparisonRest]
  cases hcomparison : comparison? (g.head ts) with
  | none =>
    have hok : Carries g g' 7 0 I Part.Same ts (.ok (left, ts)) fun i _ us => .ok (left' i, us) :=
      .ok fun i _ _ hi => ⟨left' i, rfl, hleft i hi⟩
    refine hok.congr fun i m us _ hlike => ?_
    rw [comparisonRest, ← hlike.comparison, hcomparison]
  | some f =>
    obtain ⟨hsingle, hkind⟩ := comparison_cases hcomparison
    obtain ⟨t, us, rfl, -⟩ := cons_of_head rfl hkind
    have hlater := (h.read (Along I Token.Same t) .sum us).map (Part.join (.binary f) left)
      (fun i => Part.join (.binary f) (left' i.1)) fun i _ _ hi hp =>
        join_same (binary_same f) (hleft i.1 hi.1) hp
    have hcons : Carries g g' 7 1 I Part.Same (t :: us) _ fun i m vs =>
        g'.chain m .sum vs.tail >>= fun r => .ok (Part.join (.binary f) (left' i) r.1, r.2) :=
      .cons hsingle hlater (by decide) fun i m t' vs _ _ => rfl
    refine (hcons.weaken (Nat.le_refl _) (Nat.zero_le _)).congr fun i m vs _ hlike => ?_
    rw [comparisonRest, ← hlike.comparison, hcomparison]

theorem comparison_carries (h : AllCarry g g' n) (ts : List Token) :
    Carries g g' 8 1 I Part.Same ts (g.comparison (n + 1) ts) fun _ m us => g'.comparison m us := by
  rw [comparison_eq]
  have hlater := (h.read I .sum ts).bind (fun r => g.comparisonRest n r.1 r.2)
    (fun _ m r => g'.comparisonRest m r.1 r.2)
    (fun left us => comparisonRest_carries h (I := Along I Part.Same left) (fun i hi => hi.2) us)
    (by decide : 7 ≤ 7 + 16 * 1)
  exact hlater.rule (Nat.le_refl _) (by decide) fun _ _ _ _ _ => comparison_eq g' _ _

def powerRest (g : Grammar) (n : Nat) (base : Part) (ts : List Token) : Except Reject (Read Part) :=
  if (g.head ts).kind = .caret then
    g.power n ts.tail >>= fun r => .ok (Part.join (.binary (.arith .pow)) base r.1, r.2)
  else .ok (base, ts)

theorem power_eq (g : Grammar) (n : Nat) (ts : List Token) :
    g.power (n + 1) ts = g.unary n ts >>= fun r => g.powerRest n r.1 r.2 := by
  rw [power]
  rfl

theorem powerRest_carries (h : AllCarry g g' n) {base : Part} {base' : ι → Part}
    (hbase : ∀ i, I i → base.Same (base' i)) (ts : List Token) :
    Carries g g' 3 0 I Part.Same ts (g.powerRest n base ts)
      fun i m us => g'.powerRest m (base' i) us := by
  rw [powerRest]
  split
  · next hhead =>
    obtain ⟨t, us, rfl, hkind⟩ := cons_of_head hhead nofun
    have hlater := (h.read (Along I Token.Same t) .power us).map
      (Part.join (.binary (.arith .pow)) base)
      (fun i => Part.join (.binary (.arith .pow)) (base' i.1))
      fun i _ _ hi hp => join_same (binary_same _) (hbase i.1 hi.1) hp
    have hcons : Carries g g' 3 1 I Part.Same (t :: us) _ fun i m vs =>
        g'.power m vs.tail >>= fun r => .ok (Part.join (.binary (.arith .pow)) (base' i) r.1, r.2) :=
      .cons (by rw [hkind]; rfl) hlater (by decide) fun i m t' vs _ _ => rfl
    refine (hcons.weaken (Nat.le_refl _) (Nat.zero_le _)).congr fun i m vs _ hlike => ?_
    rw [powerRest, if_pos ((hlike.kind_iff .caret nofun).mp hhead)]
  · next hhead =>
    have hok : Carries g g' 3 0 I Part.Same ts (.ok (base, ts)) fun i _ us => .ok (base' i, us) :=
      .ok fun i _ _ hi => ⟨base' i, rfl, hbase i hi⟩
    refine hok.congr fun i m us _ hlike => ?_
    rw [powerRest, if_neg (mt (hlike.kind_iff .caret nofun).mpr hhead)]

theorem power_carries (h : AllCarry g g' n) (ts : List Token) :
    Carries g g' 3 1 I Part.Same ts (g.power (n + 1) ts) fun _ m us => g'.power m us := by
  rw [power_eq]
  have hlater := (h.read I .unary ts).bind (fun r => g.powerRest n r.1 r.2)
    (fun _ m r => g'.powerRest m r.1 r.2)
    (fun base us => powerRest_carries h (I := Along I Part.Same base) (fun i hi => hi.2) us)
    (by decide : 3 ≤ 2 + 16 * 1)
  exact hlater.rule (Nat.le_refl _) (by decide) fun _ _ _ _ _ => power_eq g' _ _

theorem unary_carries (h : AllCarry g g' n) (ts : List Token) :
    Carries g g' 2 1 I Part.Same ts (g.unary (n + 1) ts) fun _ m us => g'.unary m us := by
  rw [unary]
  split
  · next hhead =>
    obtain ⟨t, us, rfl, hkind⟩ := cons_of_head hhead (by simp)
    have hlater := (h.read (Along I Token.Same t) .unary us).map (negativePart t)
      (fun i => negativePart i.2) fun i _ _ _ hp => negativePart_same t i.2 hp
    have hcons : Carries g g' 1 1 I Part.Same (t :: us) _ fun _ m vs =>
        g'.unary m vs.tail >>= fun r => .ok (negativePart (g'.head vs) r.1, r.2) :=
      .cons (by rw [hkind]; rfl) hlater (by decide) fun i m t' vs _ _ => rfl
    refine hcons.rule (Nat.le_refl _) (by decide) fun i m vs _ hlike => ?_
    rw [unary, if_pos ((hlike.kind_iff .minus (by simp)).mp hhead)]
    rfl
  · next hhead =>
    refine (h.read I .operand ts).rule (by decide) (by decide) fun i m vs _ hlike => ?_
    rw [unary, if_neg (mt (hlike.kind_iff .minus (by simp)).mpr hhead)]
    rfl

/-! ## Operands -/

def argumentRest (g : Grammar) (n : Nat) (first : Part) (ts : List Token) :
    Except Reject (Read (List Expr)) :=
  if (g.head ts).kind = .comma then
    g.argumentList n ts.tail >>= fun r => .ok (first.expr :: r.1, r.2)
  else .ok ([first.expr], ts)

theorem argumentList_eq (g : Grammar) (n : Nat) (ts : List Token) :
    g.argumentList (n + 1) ts = g.chain n .either ts >>= fun r => g.argumentRest n r.1 r.2 := by
  rw [argumentList]
  rfl

theorem argumentRest_carries (h : AllCarry g g' n) {first : Part} {first' : ι → Part}
    (hfirst : ∀ i, I i → first.Same (first' i)) (ts : List Token) :
    Carries g g' 13 0 I SameArgs ts (g.argumentRest n first ts)
      fun i m us => g'.argumentRest m (first' i) us := by
  rw [argumentRest]
  split
  · next hhead =>
    obtain ⟨t, us, rfl, hkind⟩ := cons_of_head hhead nofun
    have hlater := (h.argumentList (Along I Token.Same t) us).map (first.expr :: ·)
      (fun i es => (first' i.1).expr :: es) fun i _ _ hi hes =>
        sameArgs_cons (hfirst i.1 hi.1) hes
    have hcons : Carries g g' 13 1 I SameArgs (t :: us) _ fun i m vs =>
        g'.argumentList m vs.tail >>= fun r => .ok ((first' i).expr :: r.1, r.2) :=
      .cons (by rw [hkind]; rfl) hlater (by decide) fun i m t' vs _ _ => rfl
    refine (hcons.weaken (Nat.le_refl _) (Nat.zero_le _)).congr fun i m vs _ hlike => ?_
    rw [argumentRest, if_pos ((hlike.kind_iff .comma nofun).mp hhead)]
  · next hhead =>
    have hok : Carries g g' 13 0 I SameArgs ts (.ok ([first.expr], ts)) fun i _ us =>
        .ok ([(first' i).expr], us) :=
      .ok fun i _ _ hi => ⟨_, rfl, sameArgs_cons (hfirst i hi) rfl⟩
    refine hok.congr fun i m us _ hlike => ?_
    rw [argumentRest, if_neg (mt (hlike.kind_iff .comma nofun).mpr hhead)]

theorem argumentList_carries (h : AllCarry g g' n) (ts : List Token) :
    Carries g g' 14 1 I SameArgs ts (g.argumentList (n + 1) ts) fun _ m us => g'.argumentList m us := by
  rw [argumentList_eq]
  have hlater := (h.read I .either ts).bind (fun r => g.argumentRest n r.1 r.2)
    (fun _ m r => g'.argumentRest m r.1 r.2)
    (fun first us => argumentRest_carries h (I := Along I Part.Same first) (fun i hi => hi.2) us)
    (by decide : 13 ≤ 13 + 16 * 1)
  exact hlater.rule (Nat.le_refl _) (by decide) fun _ _ _ _ _ => argumentList_eq g' _ _

theorem arguments_carries (h : AllCarry g g' n) (ts : List Token) :
    Carries g g' 17 0 I SameArgs ts (g.arguments (n + 1) ts) fun _ m us => g'.arguments m us := by
  rw [arguments]
  split
  · next hhead =>
    have hok : Carries g g' 16 0 I SameArgs ts (.ok ([], ts)) fun _ _ us => .ok ([], us) :=
      .ok fun _ _ _ _ => ⟨[], rfl, rfl⟩
    refine hok.rule (Nat.le_refl _) (by decide) fun i m us _ hlike => ?_
    rw [arguments, if_pos ((hlike.kind_iff .rightParen (by simp)).mp hhead)]
  · next hhead =>
    refine ((h.argumentList I ts).rule (by decide : 14 + 1 ≤ 17) (by decide)
      fun i m us _ hlike => ?_).weaken (Nat.le_refl _) (Nat.zero_le _)
    rw [arguments, if_neg (mt (hlike.kind_iff .rightParen (by simp)).mpr hhead)]

def enclosedPart (t : Token) (p : Part) (stop : Token) : Part := ⟨p.expr, t.span.join stop.span⟩

def groupRest (g : Grammar) (t : Token) (p : Part) (ts : List Token) : Except Reject (Read Part) :=
  g.expect .rightParen ts >>= fun s => .ok (enclosedPart t p s.1, s.2)

def group (g : Grammar) (n : Nat) (t : Token) (ts : List Token) : Except Reject (Read Part) :=
  g.chain n .either ts >>= fun r => g.groupRest t r.1 r.2

theorem group_carries (h : AllCarry g g' n) (t : Token) (t' : ι → Token) (ts : List Token) :
    Carries g g' 13 1 I Part.Same ts (g.group n t ts) fun i m us => g'.group m (t' i) us := by
  have hrest : ∀ p us, Carries g g' 13 1 (Along I Part.Same p) Part.Same us (g.groupRest t p us)
      fun i _ vs => g'.groupRest (t' i.1) i.2 vs := fun p us =>
    (expect_carries (Along I Part.Same p) .rightParen rfl nofun us).map (enclosedPart t p)
      (fun i => enclosedPart (t' i.1) i.2) fun _ _ _ hi _ => hi.2
  exact (h.read I .either ts).bind (fun r => g.groupRest t r.1 r.2)
    (fun i _ r => g'.groupRest (t' i) r.1 r.2) hrest (by decide)

def callRest (g : Grammar) (t : Token) (args : List Expr) (ts : List Token) :
    Except Reject (Read Part) :=
  g.expect .rightParen ts >>= fun s => g.callPart t args s.1.span >>= fun p => .ok (p, s.2)

def call (g : Grammar) (n : Nat) (t : Token) (ts : List Token) : Except Reject (Read Part) :=
  g.arguments n ts >>= fun r => g.callRest t r.1 r.2

theorem callPart_carries (hfunctions : g'.functions = g.functions) {args : List Expr} (stop : Span)
    (t' : ι → Token) (args' : ι → List Expr) (stop' : ι → Span)
    (ht : ∀ i, I i → t.Same (t' i)) (hargs : ∀ i, I i → SameArgs args (args' i)) (ts : List Token) :
    Carries g g' need 0 I Part.Same ts (g.callPart t args stop >>= fun p => .ok (p, ts))
      fun i _ us => g'.callPart (t' i) (args' i) (stop' i) >>= fun p => .ok (p, us) := by
  cases hcall : g.callPart t args stop with
  | error r => exact .error
  | ok p =>
    refine .ok fun i _ us hi => ?_
    obtain ⟨p', hp', hsame⟩ := callPart_same hfunctions (text_of_symbol (ht i hi)) (hargs i hi) hcall
      (stop' i)
    exact ⟨p', by rw [hp']; rfl, hsame⟩

theorem call_carries (hfunctions : g'.functions = g.functions) (h : AllCarry g g' n) (t' : ι → Token)
    (ht : ∀ i, I i → t.Same (t' i)) (ts : List Token) :
    Carries g g' 17 0 I Part.Same ts (g.call n t ts) fun i m us => g'.call m (t' i) us := by
  have hrest : ∀ args us, Carries g g' 17 1 (Along I SameArgs args) Part.Same us
      (g.callRest t args us) fun i _ vs => g'.callRest (t' i.1) i.2 vs := fun args us =>
    (expect_carries (Along I SameArgs args) .rightParen rfl nofun us).bind
      (fun s => g.callPart t args s.1.span >>= fun p => .ok (p, s.2))
      (fun i _ s => g'.callPart (t' i.1) i.2 s.1.span >>= fun p => .ok (p, s.2))
      (fun s vs => callPart_carries (I := Along (Along I SameArgs args) Token.Same s) hfunctions s.span
        (fun i => t' i.1.1) (fun i => i.1.2) (fun i => i.2.span) (fun i hi => ht i.1.1 hi.1.1)
        (fun i hi => hi.1.2) vs)
      (by decide : 0 ≤ 17 + 16 * 1)
  exact (h.arguments I ts).bind (fun r => g.callRest t r.1 r.2)
    (fun i _ r => g'.callRest (t' i) r.1 r.2) hrest (Nat.le_refl _)

def wordPart (g : Grammar) (n : Nat) (t : Token) (ts : List Token) : Except Reject (Read Part) :=
  if (g.head ts).kind = .leftParen then g.call n t ts.tail
  else wordOperand t >>= fun e => .ok (⟨e, t.span⟩, ts)

theorem wordOperand_same (hsame : t.Same t') {e : Expr} (h : wordOperand t = .ok e) :
    ∃ e', wordOperand t' = .ok e' ∧ e.erase = e'.erase := by
  unfold wordOperand at h ⊢
  rw [← keyword?_of_symbol hsame]
  cases hword : keyword? t with
  | none =>
    rw [hword] at h
    cases h
    refine ⟨_, rfl, ?_⟩
    rw [Expr.erase, Expr.erase, Token.word, Token.word, text_of_symbol hsame]
  | some word =>
    rw [hword] at h
    cases word <;> cases h <;> refine ⟨_, rfl, ?_⟩
    all_goals first
      | rfl
      | rw [Expr.erase, Expr.erase, Token.word, Token.word, text_of_symbol hsame]

theorem wordPart_carries (hfunctions : g'.functions = g.functions) (h : AllCarry g g' n)
    (t' : ι → Token) (ht : ∀ i, I i → t.Same (t' i)) (ts : List Token) :
    Carries g g' 1 0 I Part.Same ts (g.wordPart n t ts) fun i m us => g'.wordPart m (t' i) us := by
  rw [wordPart]
  split
  · next hhead =>
    obtain ⟨u, us, rfl, hkind⟩ := cons_of_head hhead nofun
    have hlater := call_carries hfunctions h (I := Along I Token.Same u) (fun i => t' i.1)
      (fun i hi => ht i.1 hi.1) us
    have hcons : Carries g g' 1 1 I Part.Same (u :: us) _ fun i m vs => g'.call m (t' i) vs.tail :=
      .cons (by rw [hkind]; rfl) hlater (by decide) fun i m u' vs _ _ => rfl
    refine (hcons.weaken (Nat.le_refl _) (Nat.zero_le _)).congr fun i m vs _ hlike => ?_
    rw [wordPart, if_pos ((hlike.kind_iff .leftParen nofun).mp hhead)]
  · next hhead =>
    cases hword : wordOperand t with
    | error r => exact .error
    | ok e =>
      have hok : Carries g g' 1 0 I Part.Same ts (.ok (⟨e, t.span⟩, ts)) fun i _ us =>
          wordOperand (t' i) >>= fun e => .ok (⟨e, (t' i).span⟩, us) := by
        refine .ok fun i _ us hi => ?_
        obtain ⟨e', he', hsame⟩ := wordOperand_same (ht i hi) hword
        exact ⟨⟨e', (t' i).span⟩, by rw [he']; rfl, hsame⟩
      refine hok.congr fun i m us _ hlike => ?_
      rw [wordPart, if_neg (mt (hlike.kind_iff .leftParen nofun).mpr hhead)]

theorem jsonOperand_carries (what : LiteralKind) (t' : ι → Token) (ht : ∀ i, I i → t.Same (t' i))
    (ts : List Token) :
    Carries g g' need 0 I Part.Same ts (jsonOperand what t ts)
      fun i _ us => jsonOperand what (t' i) us := by
  unfold jsonOperand readJson
  cases hvalue : Json.read? t.text with
  | none => exact .error
  | some v =>
    refine .ok fun i _ us hi => ⟨⟨.literal v (t' i).span, (t' i).span⟩, ?_, rfl⟩
    rw [← text_of_symbol (ht i hi), hvalue]
    rfl

def operandAt (g : Grammar) (n : Nat) (t : Token) (ts : List Token) : Except Reject (Read Part) :=
  match t.kind with
  | .leftParen => g.group n t ts
  | .word => g.wordPart n t ts
  | .number => jsonOperand .number t ts
  | .string => jsonOperand .string t ts
  | .leftBracket => g.structuredOperand .rightBracket t ts
  | .leftBrace => g.structuredOperand .rightBrace t ts
  | _ => .error (unexpected .expression t)

theorem operand_eq (g : Grammar) (n : Nat) (ts : List Token) :
    g.operand (n + 1) ts = g.operandAt n (g.head ts) ts.tail := by
  rw [operand]
  rfl

theorem operand_of_kind {kind : Kind} {us : List Token} {x : Except Reject (Read Part)}
    {need' least' : Nat} {y : ι × Token → Nat → List Token → Except Reject (Read Part)}
    (hkind : t.kind = kind) (hsingle : isSingle kind)
    (h : Carries g g' need' least' (Along I Token.Same t) Part.Same us x y) (hneed : need' ≤ 16)
    (hy : ∀ i m t us, t.kind = kind → g'.operandAt m t us = y (i, t) m us) :
    Carries g g' 1 1 I Part.Same (t :: us) x fun _ m us => g'.operand m us := by
  subst hkind
  have hcons : Carries g g' 0 1 I Part.Same (t :: us) x
      fun _ m vs => g'.operandAt m (g'.head vs) vs.tail :=
    .cons hsingle h (by omega) fun i m t' vs _ hsame => hy i m t' vs (kind_of_symbol hsame).symm
  exact hcons.rule (Nat.le_refl _) (by decide) fun _ _ _ _ _ => operand_eq g' _ _

theorem operand_of_structured {kind wanted : Kind} {us : List Token} (hkind : t.kind = kind)
    (hopen : kind = .leftBracket ∨ kind = .leftBrace)
    (hy : ∀ m t us, t.kind = kind → g'.operandAt m t us = g'.structuredOperand wanted t us) :
    Carries g g' 1 1 I Part.Same (t :: us) (g.structuredOperand wanted t us) fun _ m us =>
      g'.operand m us := by
  subst hkind
  have hstructured : Carries g g' 0 1 I Part.Same (t :: us) _ _ := structured_carries wanted hopen
  refine hstructured.rule (Nat.le_refl _) (by decide) fun i m vs _ hlike => ?_
  rw [operand_eq, hy m _ _ ((hlike.kind_iff t.kind ?_).mp rfl)]
  rcases hopen with hopen | hopen <;> simp [hopen]

theorem operand_carries (hfunctions : g'.functions = g.functions) (h : AllCarry g g' n)
    (ts : List Token) :
    Carries g g' 1 1 I Part.Same ts (g.operand (n + 1) ts) fun _ m us => g'.operand m us := by
  rw [operand_eq]
  unfold operandAt
  split
  case h_1 hhead =>
    obtain ⟨t, us, rfl, hkind⟩ := cons_of_head hhead nofun
    exact operand_of_kind hkind rfl (group_carries (I := Along I Token.Same t) h t Prod.snd us)
      (by decide) fun i m t us hkind => by rw [operandAt, hkind]
  case h_2 hhead =>
    obtain ⟨t, us, rfl, hkind⟩ := cons_of_head hhead nofun
    exact operand_of_kind hkind rfl
      (wordPart_carries (I := Along I Token.Same t) hfunctions h Prod.snd (fun i hi => hi.2) us)
      (by decide) fun i m t us hkind => by rw [operandAt, hkind]
  case h_3 hhead =>
    obtain ⟨t, us, rfl, hkind⟩ := cons_of_head hhead nofun
    exact operand_of_kind hkind rfl (jsonOperand_carries .number Prod.snd (fun i hi => hi.2) us)
      (Nat.zero_le _) fun i m t us hkind => by rw [operandAt, hkind]
  case h_4 hhead =>
    obtain ⟨t, us, rfl, hkind⟩ := cons_of_head hhead nofun
    exact operand_of_kind hkind rfl (jsonOperand_carries .string Prod.snd (fun i hi => hi.2) us)
      (Nat.zero_le _) fun i m t us hkind => by rw [operandAt, hkind]
  case h_5 hhead =>
    obtain ⟨t, us, rfl, hkind⟩ := cons_of_head hhead nofun
    exact operand_of_structured hkind (.inl rfl) fun m t us hkind => by rw [operandAt, hkind]
  case h_6 hhead =>
    obtain ⟨t, us, rfl, hkind⟩ := cons_of_head hhead nofun
    exact operand_of_structured hkind (.inr rfl) fun m t us hkind => by rw [operandAt, hkind]
  case h_7 => exact .error

/-! ## All rules -/

theorem read_carries (hfunctions : g'.functions = g.functions) (h : AllCarry g g' n) (rank : Rank)
    (ts : List Token) : Carries g g' rank.depth 1 I Part.Same ts (g.read rank (n + 1) ts)
      fun _ m us => g'.read rank m us := by
  cases rank with
  | either => exact chain_carries h .either ts
  | both => exact chain_carries h .both ts
  | negation => exact negation_carries h ts
  | comparison => exact comparison_carries h ts
  | sum => exact chain_carries h .sum ts
  | product => exact chain_carries h .product ts
  | power => exact power_carries h ts
  | unary => exact unary_carries h ts
  | operand => exact operand_carries hfunctions h ts

theorem allCarry (hfunctions : g'.functions = g.functions) (n : Nat) : AllCarry g g' n := by
  induction n with
  | zero =>
    have hreject : ∀ {ι α β : Type} {need least : Nat} {I : ι → Prop} {same : α → β → Prop}
        {ts : List Token} {y : ι → Nat → List Token → Except Reject (Read β)},
        Carries g g' need least I same ts (g.reject .expression ts) y := .error
    refine ⟨fun I rank ts => ?_, fun I level ts => ?_, fun I level left left' _ ts => ?_,
      fun I ts => ?_, fun I ts => ?_⟩
    · cases rank <;> simp only [read, chain, negation, comparison, power, unary, operand] <;>
        exact hreject
    · rw [link]
      exact hreject
    · rw [chainRest]
      exact hreject
    · rw [arguments]
      exact hreject
    · rw [argumentList]
      exact hreject
  | succ n ih =>
    exact ⟨fun _ => read_carries hfunctions ih, fun _ => link_carries ih,
      fun _ level _ _ hleft => chainRest_carries ih level hleft, fun _ => arguments_carries ih,
      fun _ => argumentList_carries ih⟩

theorem expr_moved (hfunctions : g'.functions = g.functions) {p : Part} {rest : List Token}
    (h : g.expr ts = .ok (p, rest)) :
    ∃ chunks, ts = flat chunks ++ rest ∧ (∀ c ∈ chunks, c.Stands g) ∧ ∀ chunks' rest',
      chunks.Forall₂ (Chunk.Moved g') chunks' → Like (g.head rest) (g'.head rest') →
        ∃ p', g'.expr (flat chunks' ++ rest') = .ok (p', rest') ∧ p.Same p' := by
  obtain ⟨chunks, rfl, -, hstands, hcarry⟩ :=
    (allCarry hfunctions (fuel ts)).read (fun _ : Unit => True) .either ts p rest h
  refine ⟨chunks, rfl, hstands, fun chunks' rest' hmoved hrest => ?_⟩
  refine hcarry () trivial (fuel (flat chunks' ++ rest')) ?_ chunks' rest' hmoved hrest
  have hlength := length_flat hmoved
  have hdepth : Rank.either.depth = 13 := rfl
  rw [fuel, List.length_append, hdepth]
  omega

end Grammar

end Stencil

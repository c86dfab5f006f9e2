import Stencil.Grammar.Expr
import Stencil.Proofs.Calling.Within
/-!
# The calls that are read

`Grammar.calls` lists the calls that the reading of an expression comes to, in the order in which it
does. A call that is refused ends the reading with its fault, and no other fault is about a number of
arguments. Otherwise the tree holds the node of every call, and no other nodes of calls.
-/

namespace Stencil

/-- A call as it is written, once its closing parenthesis has been read. -/
structure CallSite where
  name : Token
  args : List Expr
  stop : Span

def CallSite.span (c : CallSite) : Span := c.name.span.join c.stop

def Fault.isArity : Fault → Bool
  | .wrongArity _ _ _ => true
  | _ => false

namespace Grammar

def node (g : Grammar) (c : CallSite) : Except Reject Expr :=
  (g.callPart c.name c.args c.stop).map (·.expr)

/-! ## The calls of a rule -/

inductive Rule where
  | chain (level : Level)
  | chainRest (level : Level) (left : Part)
  | link (level : Level)
  | negation
  | comparison
  | power
  | unary
  | operand
  | arguments
  | argumentList

def callsAfter (x : Except Reject α) (cs : α → List CallSite) : List CallSite :=
  match x with
  | .ok a => cs a
  | .error _ => []

/-- The calls that a rule comes to with some fuel. The arguments of a call come before it. -/
@[simp]
def calls (g : Grammar) : Nat → Rule → List Token → List CallSite
  | 0, _, _ => []
  | n + 1, .chain level, ts =>
    g.calls n (.link level) ts ++ callsAfter (g.link n level ts) fun (left, ts) =>
      g.calls n (.chainRest level left) ts
  | n + 1, .chainRest level left, ts =>
    match level.operator? (g.head ts) with
    | none => []
    | some node =>
      g.calls n (.link level) ts.tail ++ callsAfter (g.link n level ts.tail) fun (right, ts) =>
        g.calls n (.chainRest level (Part.join node left right)) ts
  | n + 1, .link level, ts =>
    match level with
    | .either => g.calls n (.chain .both) ts
    | .both => g.calls n .negation ts
    | .sum => g.calls n (.chain .product) ts
    | .product => g.calls n .power ts
  | n + 1, .negation, ts =>
    if g.ahead .notWord ts then g.calls n .negation ts.tail else g.calls n .comparison ts
  | n + 1, .comparison, ts =>
    g.calls n (.chain .sum) ts ++ callsAfter (g.chain n .sum ts) fun (_, ts) =>
      match comparison? (g.head ts) with
      | none => []
      | some _ => g.calls n (.chain .sum) ts.tail
  | n + 1, .power, ts =>
    g.calls n .unary ts ++ callsAfter (g.unary n ts) fun (_, ts) =>
      if (g.head ts).kind = .caret then g.calls n .power ts.tail else []
  | n + 1, .unary, ts =>
    if (g.head ts).kind = .minus then g.calls n .unary ts.tail else g.calls n .operand ts
  | n + 1, .operand, ts =>
    match (g.head ts).kind with
    | .leftParen => g.calls n (.chain .either) ts.tail
    | .word =>
      if (g.head ts.tail).kind = .leftParen then
        g.calls n .arguments ts.tail.tail ++
          callsAfter (g.arguments n ts.tail.tail) fun (args, rest) =>
            callsAfter (g.expect .rightParen rest) fun (stop, _) => [⟨g.head ts, args, stop.span⟩]
      else []
    | _ => []
  | n + 1, .arguments, ts =>
    if (g.head ts).kind = .rightParen then [] else g.calls n .argumentList ts
  | n + 1, .argumentList, ts =>
    g.calls n (.chain .either) ts ++ callsAfter (g.chain n .either ts) fun (_, ts) =>
      if (g.head ts).kind = .comma then g.calls n .argumentList ts.tail else []

/-! ## What becomes of them -/

def noExprs (_ : α) : List Expr := []

/-- Some expressions hold others, and no calls besides. -/
structure Holds (known es : List Expr) : Prop where
  kept : ∀ x : Expr, x.Among known → x.Among es
  only : ∀ x : Expr, x.isCall → x.Among es → x.Among known

/-- Some expressions hold what is known and the nodes of the calls, and no other nodes of calls. -/
structure Collects (g : Grammar) (cs : List CallSite) (known es : List Expr) : Prop where
  kept : ∀ x : Expr, x.Among known → x.Among es
  calls : ∀ c ∈ cs, ∃ x, g.node c = .ok x ∧ x.Among es
  only : ∀ x : Expr, x.isCall → x.Among es → x.Among known ∨ ∃ c ∈ cs, g.node c = .ok x

def Accounts (g : Grammar) (cs : List CallSite) (known : List Expr) (exprs : α → List Expr) :
    Except Reject α → Prop
  | .ok a => g.Collects cs known (exprs a)
  | .error r => (∀ c ∈ cs, ∀ r', g.node c = .error r' → r' = r) ∧
    (r.fault.isArity → ∃ c ∈ cs, g.node c = .error r)

variable {g : Grammar} {cs : List CallSite} {known known' es : List Expr} {x : Except Reject α}
  {exprs : α → List Expr} {exprs' : β → List Expr}

theorem Accounts.bind {after : α → List CallSite} {f : α → Except Reject β}
    (hx : g.Accounts cs [] exprs x)
    (hf : ∀ a, x = .ok a → g.Accounts (after a) (known ++ exprs a) exprs' (f a)) :
    g.Accounts (cs ++ callsAfter x after) known exprs' (x >>= f) := by
  cases x with
  | error r =>
    rw [callsAfter, List.append_nil]
    exact hx
  | ok a =>
    have hfa := hf a rfl
    rw [except_ok_bind, callsAfter]
    -- the nodes of the first calls are part of what is read first, so they are known later
    cases hy : f a with
    | error r =>
      rw [hy] at hfa
      refine ⟨?_, ?_⟩
      · intro c hc r' hr'
        rcases List.mem_append.mp hc with hc | hc
        · obtain ⟨x, hx, -⟩ := hx.calls c hc
          rw [hx] at hr'
          cases hr'
        · exact hfa.1 c hc r' hr'
      · intro hr
        obtain ⟨c, hc, hcr⟩ := hfa.2 hr
        exact ⟨c, List.mem_append_right _ hc, hcr⟩
    | ok b =>
      rw [hy] at hfa
      have hknown : ∀ x : Expr, x.Among (exprs a) → x.Among (exprs' b) := by
        intro x hx
        exact hfa.kept x (Expr.among_append.mpr (.inr hx))
      refine ⟨?_, ?_, ?_⟩
      · intro x hx
        exact hfa.kept x (Expr.among_append.mpr (.inl hx))
      · intro c hc
        rcases List.mem_append.mp hc with hc | hc
        · obtain ⟨x, hnode, hx⟩ := hx.calls c hc
          exact ⟨x, hnode, hknown x hx⟩
        · exact hfa.calls c hc
      · intro x hcall hb
        rcases hfa.only x hcall hb with hold | ⟨c, hc, hnode⟩
        · rcases Expr.among_append.mp hold with hold | hold
          · exact .inl hold
          · rcases hx.only x hcall hold with ⟨e, he, -⟩ | ⟨c, hc, hnode⟩
            · cases he
            · exact .inr ⟨c, List.mem_append_left _ hc, hnode⟩
        · exact .inr ⟨c, List.mem_append_right _ hc, hnode⟩

theorem Accounts.then {f : α → Except Reject β} (hx : g.Accounts cs [] exprs x)
    (hf : ∀ a, x = .ok a → g.Accounts [] (known ++ exprs a) exprs' (f a)) :
    g.Accounts cs known exprs' (x >>= f) := by
  have hnone : callsAfter x (fun _ => []) = [] := by cases x <;> rfl
  have h : g.Accounts (cs ++ callsAfter x fun _ => []) known exprs' (x >>= f) := .bind hx hf
  rwa [hnone, List.append_nil] at h

theorem Accounts.before {after : α → List CallSite} {f : α → Except Reject β}
    (hx : g.Accounts [] [] noExprs x)
    (hf : ∀ a, x = .ok a → g.Accounts (after a) known exprs' (f a)) :
    g.Accounts (callsAfter x after) known exprs' (x >>= f) := by
  apply Accounts.bind hx
  intro a ha
  rw [noExprs, List.append_nil]
  exact hf a ha

theorem Accounts.map {f : α → β} (hx : g.Accounts cs known exprs x)
    (hf : ∀ a, exprs' (f a) = exprs a) :
    g.Accounts cs known exprs' (x >>= fun a => .ok (f a)) := by
  cases x with
  | error r => exact hx
  | ok a =>
    rw [except_ok_bind, Accounts, hf]
    exact hx

theorem Accounts.weaken (h : Holds known known') (hx : g.Accounts cs known' exprs x) :
    g.Accounts cs known exprs x := by
  cases x with
  | error r => exact hx
  | ok a =>
    refine ⟨?_, hx.calls, ?_⟩
    · intro x hknown
      exact hx.kept x (h.kept x hknown)
    · intro x hcall ha
      exact (hx.only x hcall ha).imp_left (h.only x hcall)

theorem Accounts.ok {a : α} (h : Holds known (exprs a)) : g.Accounts [] known exprs (.ok a) :=
  ⟨h.kept, nofun, fun x hcall ha => .inl (h.only x hcall ha)⟩

theorem Accounts.error {r : Reject} (h : r.fault.isArity = false) :
    g.Accounts [] known exprs (.error r) := by
  refine ⟨nofun, ?_⟩
  intro hr
  rw [h] at hr
  cases hr

theorem holds_refl (es : List Expr) : Holds es es := ⟨fun _ h => h, fun _ _ h => h⟩

theorem holds_node {e : Expr} (h : e.isCall = false) : Holds e.children [e] := by
  refine ⟨?_, ?_⟩
  · rintro x ⟨child, hchild, hx⟩
    exact ⟨e, List.mem_singleton_self e, .deeper hchild hx⟩
  · rintro x hcall ⟨e', he', hx⟩
    cases List.mem_singleton.mp he'
    cases hx with
    | self =>
      rw [h] at hcall
      cases hcall
    | deeper hchild hx => exact ⟨_, hchild, hx⟩

theorem not_among_literal {x : Expr} {v : Value} {span : Span} (h : x.isCall) :
    ¬ x.Among [.literal v span] := by
  rintro ⟨e, he, hx⟩
  cases List.mem_singleton.mp he
  cases hx with
  | self => cases h
  | deeper hchild => cases hchild

theorem children_node (f : Callee) (name : Word) (args : List Expr) (span : Span) :
    (f.node name args span).children = args := by
  unfold Callee.node
  split <;> rfl

theorem children_callPart {name : Token} {args : List Expr} {stop : Span} {p : Part}
    (h : g.callPart name args stop = .ok p) : p.expr.children = args := by
  unfold callPart at h
  dsimp only at h
  split at h
  · cases h
    exact children_node _ _ _ _
  · cases h

theorem callPart_accounts (g : Grammar) (name : Token) (args : List Expr) (stop : Span) :
    g.Accounts [⟨name, args, stop⟩] args (fun p => [p.expr]) (g.callPart name args stop) := by
  have hnode : g.node ⟨name, args, stop⟩ = (g.callPart name args stop).map (·.expr) := rfl
  cases h : g.callPart name args stop with
  | error r =>
    rw [h] at hnode
    refine ⟨?_, fun _ => ⟨_, List.mem_singleton_self _, hnode⟩⟩
    intro c hc r' hr'
    rw [List.mem_singleton.mp hc, hnode] at hr'
    cases hr'
    rfl
  | ok p =>
    rw [h] at hnode
    have hchildren := children_callPart h
    refine ⟨?_, ?_, ?_⟩
    · rintro x ⟨e, he, hx⟩
      exact ⟨p.expr, List.mem_singleton_self _, .deeper (hchildren ▸ he) hx⟩
    · intro c hc
      rw [List.mem_singleton.mp hc]
      exact ⟨p.expr, hnode, p.expr, List.mem_singleton_self _, .self⟩
    · rintro x - ⟨e, he, hx⟩
      cases List.mem_singleton.mp he
      cases hx with
      | self => exact .inr ⟨_, List.mem_singleton_self _, hnode⟩
      | deeper hchild hx => exact .inl ⟨_, hchildren ▸ hchild, hx⟩

/-! ## The rules -/

def partExprs (r : Read Part) : List Expr := [r.1.expr]

/-- What the rules read with some fuel is accounted for by the calls that they come to. -/
structure Counts (g : Grammar) (n : Nat) : Prop where
  chain : ∀ level ts, g.Accounts (g.calls n (.chain level) ts) [] partExprs (g.chain n level ts)
  chainRest : ∀ level left ts, g.Accounts (g.calls n (.chainRest level left) ts) [left.expr] partExprs
    (g.chainRest n level left ts)
  link : ∀ level ts, g.Accounts (g.calls n (.link level) ts) [] partExprs (g.link n level ts)
  negation : ∀ ts, g.Accounts (g.calls n .negation ts) [] partExprs (g.negation n ts)
  comparison : ∀ ts, g.Accounts (g.calls n .comparison ts) [] partExprs (g.comparison n ts)
  power : ∀ ts, g.Accounts (g.calls n .power ts) [] partExprs (g.power n ts)
  unary : ∀ ts, g.Accounts (g.calls n .unary ts) [] partExprs (g.unary n ts)
  operand : ∀ ts, g.Accounts (g.calls n .operand ts) [] partExprs (g.operand n ts)
  arguments : ∀ ts, g.Accounts (g.calls n .arguments ts) [] (·.1) (g.arguments n ts)
  argumentList : ∀ ts, g.Accounts (g.calls n .argumentList ts) [] (·.1) (g.argumentList n ts)

section

variable {n : Nat} {ts : List Token} {exprs : Read α → List Expr}

theorem reject_accounts (what : Wanted) : g.Accounts [] known exprs (g.reject what ts) :=
  .error rfl

theorem expect_accounts (kind : Token.Kind) : g.Accounts [] [] noExprs (g.expect kind ts) := by
  unfold expect
  split
  · exact .ok (holds_refl [])
  · exact reject_accounts _

theorem readJson_accounts (what : LiteralKind) (span : Span) (text : String) :
    g.Accounts [] [] noExprs (readJson what span text) := by
  unfold readJson
  split
  · exact .ok (holds_refl [])
  · exact .error rfl

theorem skipBalanced_accounts (wanted : Token.Kind) (depth : Nat) :
    g.Accounts [] [] noExprs (g.skipBalanced wanted depth ts) := by
  induction ts generalizing depth with
  | nil => exact .error rfl
  | cons t ts ih =>
    unfold skipBalanced
    split
    · exact ih _
    · exact ih _
    · split
      · exact .ok (holds_refl [])
      · exact ih _
    · split
      · exact .ok (holds_refl [])
      · exact ih _
    · exact .error rfl
    · exact .error rfl
    · exact ih _

theorem wordOperand_accounts (t : Token) : g.Accounts [] [] (fun e => [e]) (wordOperand t) := by
  unfold wordOperand
  split
  · exact .ok (holds_node (e := .literal _ _) rfl)
  · exact .ok (holds_node (e := .literal _ _) rfl)
  · exact .ok (holds_node (e := .literal _ _) rfl)
  · exact .error rfl
  · exact .error rfl
  · exact .error rfl
  · exact .error rfl
  · exact .ok (holds_node (e := .name _) rfl)

theorem jsonOperand_accounts (what : LiteralKind) (t : Token) :
    g.Accounts [] [] partExprs (jsonOperand what t ts) := by
  unfold jsonOperand
  apply Accounts.then (readJson_accounts what t.span t.text)
  intro v _
  exact .ok (holds_node (e := .literal v t.span) rfl)

theorem structuredOperand_accounts (wanted : Token.Kind) (t : Token) :
    g.Accounts [] [] partExprs (g.structuredOperand wanted t ts) := by
  unfold structuredOperand
  apply Accounts.then (skipBalanced_accounts wanted 0)
  rintro ⟨stop, rest⟩ -
  apply Accounts.then (readJson_accounts _ _ _)
  intro v _
  exact .ok (holds_node (e := .literal v _) rfl)

theorem holds_operator {level : Level} {t : Token} {node : Expr → Expr → Span → Expr}
    (h : level.operator? t = some node) (left right : Part) :
    Holds [left.expr, right.expr] [(Part.join node left right).expr] := by
  unfold Level.operator? at h
  split at h <;> cases h
  · exact holds_node (e := .either _ _ _) rfl
  · exact holds_node (e := .both _ _ _) rfl
  all_goals exact holds_node (e := .apply _ [_, _] _) rfl

theorem holds_comparison {t : Token} {f : Builtin} (h : comparison? t = some f) (left right : Part) :
    Holds [left.expr, right.expr] [(Part.join (.binary f) left right).expr] := by
  unfold comparison? at h
  split at h <;> cases h
  all_goals exact holds_node (e := .apply _ [_, _] _) rfl

theorem holds_negative (minus : Span) (e : Expr) (span : Span) :
    Holds [e] [.negative minus e span] := by
  have hnode : Holds ([.literal (Value.ofNat 0) minus] ++ [e]) [.negative minus e span] :=
    holds_node (e := .negative minus e span) rfl
  refine ⟨?_, ?_⟩
  · intro x hx
    exact hnode.kept x (Expr.among_append.mpr (.inr hx))
  · intro x hcall hx
    rcases Expr.among_append.mp (hnode.only x hcall hx) with hx | hx
    · exact absurd hx (not_among_literal hcall)
    · exact hx

variable (ih : g.Counts n)

include ih in
theorem chain_accounts (level : Level) :
    g.Accounts (g.calls (n + 1) (.chain level) ts) [] partExprs (g.chain (n + 1) level ts) := by
  rw [calls, chain]
  apply Accounts.bind (ih.link level ts)
  rintro ⟨left, ts⟩ -
  exact ih.chainRest level left ts

include ih in
theorem chainRest_accounts (level : Level) (left : Part) :
    g.Accounts (g.calls (n + 1) (.chainRest level left) ts) [left.expr] partExprs
      (g.chainRest (n + 1) level left ts) := by
  rw [calls, chainRest]
  cases hnode : level.operator? (g.head ts) with
  | none => exact .ok (holds_refl [left.expr])
  | some node =>
    apply Accounts.bind (ih.link level ts.tail)
    rintro ⟨right, ts⟩ -
    exact .weaken (holds_operator hnode left right) (ih.chainRest level _ ts)

include ih in
theorem link_accounts (level : Level) :
    g.Accounts (g.calls (n + 1) (.link level) ts) [] partExprs (g.link (n + 1) level ts) := by
  cases level with
  | either => exact ih.chain .both ts
  | both => exact ih.negation ts
  | sum => exact ih.chain .product ts
  | product => exact ih.power ts

include ih in
theorem negation_accounts :
    g.Accounts (g.calls (n + 1) .negation ts) [] partExprs (g.negation (n + 1) ts) := by
  rw [calls, negation]
  split
  · apply Accounts.then (ih.negation ts.tail)
    rintro ⟨e, rest⟩ -
    exact .ok (holds_node (e := .apply .not [e.expr] _) rfl)
  · exact ih.comparison ts

include ih in
theorem comparison_accounts :
    g.Accounts (g.calls (n + 1) .comparison ts) [] partExprs (g.comparison (n + 1) ts) := by
  rw [calls, comparison]
  apply Accounts.bind (ih.chain .sum ts)
  rintro ⟨left, ts⟩ -
  dsimp only
  cases hf : comparison? (g.head ts) with
  | none => exact .ok (holds_refl [left.expr])
  | some f =>
    apply Accounts.then (ih.chain .sum ts.tail)
    rintro ⟨right, ts⟩ -
    exact .ok (holds_comparison hf left right)

include ih in
theorem power_accounts :
    g.Accounts (g.calls (n + 1) .power ts) [] partExprs (g.power (n + 1) ts) := by
  rw [calls, power]
  apply Accounts.bind (ih.unary ts)
  rintro ⟨base, ts⟩ -
  dsimp only
  split
  · apply Accounts.then (ih.power ts.tail)
    rintro ⟨exponent, ts⟩ -
    exact .ok (holds_node (e := .apply (.arith .pow) [base.expr, exponent.expr] _) rfl)
  · exact .ok (holds_refl [base.expr])

include ih in
theorem unary_accounts :
    g.Accounts (g.calls (n + 1) .unary ts) [] partExprs (g.unary (n + 1) ts) := by
  rw [calls, unary]
  split
  · apply Accounts.then (ih.unary ts.tail)
    rintro ⟨e, ts⟩ -
    exact .ok (holds_negative _ _ _)
  · exact ih.operand ts

include ih in
theorem call_accounts (t : Token) :
    g.Accounts
      (g.calls n .arguments ts ++ callsAfter (g.arguments n ts) fun (args, rest) =>
        callsAfter (g.expect .rightParen rest) fun (stop, _) => [⟨t, args, stop.span⟩])
      [] partExprs (do
        let (args, ts) ← g.arguments n ts
        let (stop, ts) ← g.expect .rightParen ts
        return (← g.callPart t args stop.span, ts)) := by
  apply Accounts.bind (ih.arguments ts)
  rintro ⟨args, rest⟩ -
  apply Accounts.before (expect_accounts .rightParen)
  rintro ⟨stop, after⟩ -
  exact (callPart_accounts g t args stop.span).map fun _ => rfl

include ih in
theorem operand_accounts :
    g.Accounts (g.calls (n + 1) .operand ts) [] partExprs (g.operand (n + 1) ts) := by
  rw [calls, operand]
  dsimp only
  split
  · next hkind =>
    rw [hkind]
    apply Accounts.then (ih.chain .either ts.tail)
    rintro ⟨e, ts⟩ -
    apply Accounts.then (expect_accounts .rightParen)
    rintro ⟨stop, ts⟩ -
    exact .ok (holds_refl [e.expr])
  · next hkind =>
    rw [hkind]
    dsimp only
    split
    · exact call_accounts ih (g.head ts)
    · apply Accounts.then (wordOperand_accounts (g.head ts))
      intro e _
      exact .ok (holds_refl [e])
  · next hparen hword =>
    split
    · next hkind => exact absurd hkind hparen
    · next hkind => exact absurd hkind hword
    · exact jsonOperand_accounts .number _
    · exact jsonOperand_accounts .string _
    · exact structuredOperand_accounts .rightBracket _
    · exact structuredOperand_accounts .rightBrace _
    · exact reject_accounts .expression

include ih in
theorem arguments_accounts :
    g.Accounts (g.calls (n + 1) .arguments ts) [] (·.1) (g.arguments (n + 1) ts) := by
  rw [calls, arguments]
  split
  · exact .ok (holds_refl [])
  · exact ih.argumentList ts

include ih in
theorem argumentList_accounts :
    g.Accounts (g.calls (n + 1) .argumentList ts) [] (·.1) (g.argumentList (n + 1) ts) := by
  rw [calls, argumentList]
  apply Accounts.bind (ih.chain .either ts)
  rintro ⟨e, ts⟩ -
  dsimp only
  split
  · apply Accounts.then (ih.argumentList ts.tail)
    rintro ⟨args, ts⟩ -
    exact .ok (holds_refl (e.expr :: args))
  · exact .ok (holds_refl [e.expr])

end

theorem counts (g : Grammar) : ∀ n, g.Counts n
  | 0 => ⟨fun _ _ => .error rfl, fun _ _ _ => .error rfl, fun _ _ => .error rfl, fun _ => .error rfl,
      fun _ => .error rfl, fun _ => .error rfl, fun _ => .error rfl, fun _ => .error rfl,
      fun _ => .error rfl, fun _ => .error rfl⟩
  | n + 1 =>
    have ih := g.counts n
    { chain := fun level _ => chain_accounts ih level
      chainRest := fun level left _ => chainRest_accounts ih level left
      link := fun level _ => link_accounts ih level
      negation := fun _ => negation_accounts ih
      comparison := fun _ => comparison_accounts ih
      power := fun _ => power_accounts ih
      unary := fun _ => unary_accounts ih
      operand := fun _ => operand_accounts ih
      arguments := fun _ => arguments_accounts ih
      argumentList := fun _ => argumentList_accounts ih }

def exprCalls (g : Grammar) (ts : List Token) : List CallSite := g.calls (fuel ts) (.chain .either) ts

theorem expr_accounts (g : Grammar) (ts : List Token) :
    g.Accounts (g.exprCalls ts) [] partExprs (g.expr ts) := (g.counts (fuel ts)).chain .either ts

end Grammar

end Stencil

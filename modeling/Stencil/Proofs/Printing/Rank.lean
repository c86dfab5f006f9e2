import Stencil.Proofs.Printing.Term
import Stencil.Proofs.Rendering.Steps
/-!
# The rules of the grammar by rank

Each rank has a rule. A rule reads what a tighter one reads, if no operator follows that the looser rule
would take.
-/

namespace Stencil

/-! ## Results -/

def Meets (f : α → β) (expected : Option β) (rest : List Token) (x : Except Reject (Read α)) : Prop :=
  (∃ a, expected = some (f a) ∧ x = .ok (a, rest)) ∨ (expected = none ∧ ∃ r, x = .error r)

theorem Meets.bind {f : α → β} {f' : γ → δ} {expected : Option β} {us rest : List Token}
    {x : Except Reject (Read α)} (h : Meets f expected us x) {F : β → Option δ}
    {k : Read α → Except Reject (Read γ)} (hk : ∀ a, Meets f' (F (f a)) rest (k (a, us))) :
    Meets f' (expected.bind F) rest (x >>= k) := by
  rcases h with ⟨a, rfl, rfl⟩ | ⟨rfl, r, rfl⟩
  · exact hk a
  · exact .inr ⟨rfl, r, rfl⟩

theorem Meets.keep {f : α → β} {f' : γ → β} {expected : Option β} {us rest : List Token}
    {x : Except Reject (Read α)} (h : Meets f expected us x) {c : α → γ}
    {k : Read α → Except Reject (Read γ)} (hk : ∀ a, k (a, us) = .ok (c a, rest))
    (hc : ∀ a, f' (c a) = f a) : Meets f' expected rest (x >>= k) := by
  rcases h with ⟨a, rfl, rfl⟩ | ⟨rfl, r, rfl⟩
  · exact .inl ⟨c a, by rw [hc], hk a⟩
  · exact .inr ⟨rfl, r, rfl⟩

theorem Meets.map {f : α → β} {f' : γ → δ} {expected : Option β} {us rest : List Token}
    {x : Except Reject (Read α)} (h : Meets f expected us x) {F : β → δ} {c : α → γ}
    {k : Read α → Except Reject (Read γ)} (hk : ∀ a, k (a, us) = .ok (c a, rest))
    (hc : ∀ a, f' (c a) = F (f a)) : Meets f' (expected.map F) rest (x >>= k) := by
  rcases h with ⟨a, rfl, rfl⟩ | ⟨rfl, r, rfl⟩
  · exact .inl ⟨c a, by simp [hc], hk a⟩
  · exact .inr ⟨rfl, r, rfl⟩

def Part.tree (p : Part) : Expr := p.expr.erase

/-! ## Ranks -/

namespace Rank

def tighter : Rank → Rank
  | .either => .both
  | .both => .negation
  | .negation => .comparison
  | .comparison => .sum
  | .sum => .product
  | .product => .power
  | .power => .unary
  | .unary => .operand
  | .operand => .operand

def depth : Rank → Nat
  | .either => 13
  | .both => 11
  | .negation => 9
  | .comparison => 8
  | .sum => 7
  | .product => 5
  | .power => 3
  | .unary => 2
  | .operand => 1

theorem toNat_inj {r r' : Rank} (h : r.toNat = r'.toNat) : r = r' := by
  cases r <;> cases r' <;> first | rfl | cases h

theorem toNat_tighter {r : Rank} (h : r ≠ .operand) : r.tighter.toNat = r.toNat + 1 := by
  cases r <;> first | rfl | exact absurd rfl h

theorem toNat_le (r : Rank) : r.toNat ≤ operand.toNat := by
  cases r <;> decide

theorem le_toNat (r : Rank) : either.toNat ≤ r.toNat := by
  cases r <;> decide

end Rank

def Grammar.Level.rank : Grammar.Level → Rank
  | .either => .either
  | .both => .both
  | .sum => .sum
  | .product => .product

namespace Grammar

def read (g : Grammar) : Rank → Nat → List Token → Except Reject (Read Part)
  | .either, n, ts => g.chain n .either ts
  | .both, n, ts => g.chain n .both ts
  | .negation, n, ts => g.negation n ts
  | .comparison, n, ts => g.comparison n ts
  | .sum, n, ts => g.chain n .sum ts
  | .product, n, ts => g.chain n .product ts
  | .power, n, ts => g.power n ts
  | .unary, n, ts => g.unary n ts
  | .operand, n, ts => g.operand n ts

/-- A token that ends an expression of this rank: no operator of the rank or of a tighter one. -/
structure Stops (rank : Rank) (t : Token) : Prop where
  chain : ∀ level : Level, rank.toNat ≤ level.rank.toNat → level.operator? t = none
  comparison : rank.toNat ≤ Rank.comparison.toNat → comparison? t = none
  power : rank.toNat ≤ Rank.power.toNat → t.kind ≠ .caret
  call : t.kind ≠ .leftParen

/-- A token that an expression of this rank can begin with. -/
structure Opens (rank : Rank) (t : Token) : Prop where
  negation : Rank.negation.toNat < rank.toNat → keyword? t ≠ some .notWord
  unary : Rank.unary.toNat < rank.toNat → t.kind ≠ .minus
  arguments : t.kind ≠ .rightParen

variable {g : Grammar} {rank rank' : Rank} {t : Token} {ts rest : List Token} {n : Nat}
  {expected : Option Expr} {level : Level}

theorem Stops.mono (h : Stops rank t) (hle : rank.toNat ≤ rank'.toNat) : Stops rank' t :=
  ⟨fun level hlevel => h.chain level (Nat.le_trans hle hlevel),
    fun hrank => h.comparison (Nat.le_trans hle hrank),
    fun hrank => h.power (Nat.le_trans hle hrank), h.call⟩

theorem Opens.mono (h : Opens rank t) (hle : rank'.toNat ≤ rank.toNat) : Opens rank' t :=
  ⟨fun hrank => h.negation (Nat.lt_of_lt_of_le hrank hle),
    fun hrank => h.unary (Nat.lt_of_lt_of_le hrank hle), h.arguments⟩

theorem stops_of_kind (h : t.kind = .rightParen ∨ t.kind = .comma ∨ ∃ kind, t.kind = .closing kind) :
    Stops rank t := by
  have hkeyword : keyword? t = none := by
    rcases h with h | h | ⟨kind, h⟩ <;> simp [keyword?, h]
  refine ⟨fun level _ => ?_, fun _ => ?_, fun _ => ?_, ?_⟩
  · rcases h with h | h | ⟨kind, h⟩ <;> cases level <;> simp [Level.operator?, hkeyword, h]
  · rcases h with h | h | ⟨kind, h⟩ <;> simp [comparison?, hkeyword, h]
  · rcases h with h | h | ⟨kind, h⟩ <;> simp [h]
  · rcases h with h | h | ⟨kind, h⟩ <;> simp [h]

/-! ## From one rank to the next -/

theorem link_eq (g : Grammar) (n : Nat) (level : Level) (ts : List Token) :
    g.link (n + 1) level ts = g.read level.rank.tighter n ts := by
  rw [link.eq_def]
  cases level <;> rfl

theorem chainRest_stops (hstop : Stops level.rank (g.head rest)) (n : Nat) (p : Part) :
    g.chainRest (n + 1) level p rest = .ok (p, rest) := by
  rw [chainRest, hstop.chain level (Nat.le_refl _)]

theorem chain_tighter (h : Meets Part.tree expected rest (g.read level.rank.tighter n ts))
    (hstop : Stops level.rank (g.head rest)) :
    Meets Part.tree expected rest (g.chain (n + 2) level ts) := by
  rw [chain, link_eq]
  exact h.keep (fun p => chainRest_stops hstop n p) fun _ => rfl

theorem read_tighter (hrank : rank ≠ .operand)
    (h : Meets Part.tree expected rest (g.read rank.tighter n ts))
    (hstop : Stops rank (g.head rest)) (hopen : Opens rank.tighter (g.head ts)) :
    Meets Part.tree expected rest (g.read rank (n + (rank.depth - rank.tighter.depth)) ts) := by
  cases rank with
  | either => exact chain_tighter h (hstop : Stops Level.either.rank _)
  | both => exact chain_tighter h (hstop : Stops Level.both.rank _)
  | sum => exact chain_tighter h (hstop : Stops Level.sum.rank _)
  | product => exact chain_tighter h (hstop : Stops Level.product.rank _)
  | negation =>
    have hnot : g.ahead .notWord ts = false := by
      simpa [ahead] using hopen.negation (by decide)
    show Meets _ _ _ (g.negation (n + 1) ts)
    rw [negation, hnot]
    exact h
  | comparison =>
    refine Meets.keep h (fun p => ?_) fun _ => rfl
    dsimp only
    rw [hstop.comparison (Nat.le_refl _)]
    rfl
  | power =>
    refine Meets.keep h (fun p => ?_) fun _ => rfl
    dsimp only
    rw [if_neg (hstop.power (Nat.le_refl _))]
    rfl
  | unary =>
    show Meets _ _ _ (g.unary (n + 1) ts)
    rw [unary, if_neg (hopen.unary (by decide))]
    exact h
  | operand => exact absurd rfl hrank

theorem read_looser {k : Nat} (hle : rank.toNat ≤ rank'.toNat) (hopen : Opens rank' (g.head ts))
    (hstop : Stops rank (g.head rest))
    (h : ∀ n, k + rank'.depth ≤ n → Meets Part.tree expected rest (g.read rank' n ts)) :
    ∀ n, k + rank.depth ≤ n → Meets Part.tree expected rest (g.read rank n ts) := by
  induction hd : rank'.toNat - rank.toNat generalizing rank with
  | zero =>
    obtain rfl := Rank.toNat_inj (by omega : rank.toNat = rank'.toNat)
    exact h
  | succ d ih =>
    have hrank : rank ≠ .operand := by
      rintro rfl
      have hmost := rank'.toNat_le
      omega
    have hnext := Rank.toNat_tighter hrank
    intro n hn
    have hcost : rank.tighter.depth < rank.depth := by
      cases rank <;> first | decide | exact absurd rfl hrank
    obtain ⟨m, rfl⟩ : ∃ m, n = m + (rank.depth - rank.tighter.depth) :=
      ⟨n - (rank.depth - rank.tighter.depth), by omega⟩
    refine read_tighter hrank ?_ hstop (hopen.mono (by omega))
    exact ih (by omega) (hstop.mono (by omega)) (by omega) m (by omega)

end Grammar

end Stencil

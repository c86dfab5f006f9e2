import Stencil.Proofs.Placement.Cover
import Stencil.Proofs.Printing.Read
/-!
# Expressions at another place

The tokens of an expression fall into chunks: single tokens, and arrays and objects as wholes. Wherever
tokens of the same kinds and texts stand, with the same values in the place of arrays and objects, they
are read as the same expression, whatever mark ends the tag.
-/

namespace Stencil

open Token

def Token.Same (t t' : Token) : Prop := t.symbol = t'.symbol

namespace Grammar

/-! ## Chunks -/

inductive Chunk where
  | token (t : Token)
  | literal (t : Token) (ts : List Token) (v : Value)

def Chunk.tokens : Chunk → List Token
  | .token t => [t]
  | .literal t ts _ => t :: ts

def isSingle : Kind → Bool
  | .closing _ | .leftBracket | .rightBracket | .leftBrace | .rightBrace => false
  | _ => true

/-- The chunk is there in the source. -/
inductive Chunk.Stands (g : Grammar) : Chunk → Prop
  | token {t : Token} : isSingle t.kind → Stands g (.token t)
  | literal {t u : Token} {ts : List Token} {v : Value} : t.kind = .leftBracket ∨ t.kind = .leftBrace →
    (∀ s ∈ ts, ∀ kind, s.kind ≠ .closing kind) → u.kind = .rightBracket ∨ u.kind = .rightBrace →
    g.readSlice (t.span.join u.span) = .ok v → Stands g (.literal t (ts ++ [u]) v)

/-- The second chunk is what the first one is in another source. -/
inductive Chunk.Moved (g' : Grammar) : Chunk → Chunk → Prop
  | token {t t' : Token} : t.Same t' → Moved g' (.token t) (.token t')
  | literal {t t' : Token} {ts ts' : List Token} {v : Value} : t.kind = t'.kind →
    (t.kind = .leftBracket ∨ t.kind = .leftBrace) →
    (∀ wanted more, ∃ span, g'.structuredOperand wanted t' (ts' ++ more) =
      .ok (⟨.literal v span, span⟩, more)) → Moved g' (.literal t ts v) (.literal t' ts' v)

/-- The rules of expressions take the tokens alike. The ends of all tags are alike. -/
def Like (t t' : Token) : Prop :=
  t.kind = t'.kind ∧ keyword? t = keyword? t' ∨
    (∃ kind, t.kind = .closing kind) ∧ ∃ kind, t'.kind = .closing kind

variable {g g' : Grammar} {t t' : Token} {ts rest rest' : List Token} {chunks chunks' : List Chunk}

theorem keyword?_of_symbol (h : t.Same t') : keyword? t = keyword? t' := by
  have hkind : t.kind = t'.kind := congrArg Symbol.kind h
  have htext : t.text = t'.text := congrArg Symbol.text h
  rw [keyword?, keyword?, hkind, htext]

namespace Like

theorem of_symbol (h : t.Same t') : Like t t' :=
  .inl ⟨congrArg Symbol.kind h, keyword?_of_symbol h⟩

theorem kind_iff (h : Like t t') (kind : Kind) (hkind : ∀ tag, kind ≠ .closing tag) :
    t.kind = kind ↔ t'.kind = kind := by
  rcases h with ⟨h, -⟩ | ⟨⟨tag, h⟩, tag', h'⟩
  · rw [h]
  · rw [h, h']
    exact ⟨fun h => absurd h.symm (hkind tag), fun h => absurd h.symm (hkind tag')⟩

theorem keyword (h : Like t t') : keyword? t = keyword? t' := by
  rcases h with ⟨-, h⟩ | ⟨⟨tag, h⟩, tag', h'⟩
  · exact h
  · simp [keyword?, h, h']

theorem operator (h : Like t t') (level : Level) : level.operator? t = level.operator? t' := by
  rcases h with ⟨hkind, hkeyword⟩ | ⟨⟨tag, h⟩, tag', h'⟩
  · unfold Level.operator?
    rw [hkind, hkeyword]
  · have hstops : Stops .either t := stops_of_kind (.inr (.inr ⟨tag, h⟩))
    have hstops' : Stops .either t' := stops_of_kind (.inr (.inr ⟨tag', h'⟩))
    have hle : Rank.either.toNat ≤ level.rank.toNat := level.rank.le_toNat
    rw [hstops.chain level hle, hstops'.chain level hle]

theorem comparison (h : Like t t') : comparison? t = comparison? t' := by
  rcases h with ⟨hkind, hkeyword⟩ | ⟨⟨tag, h⟩, tag', h'⟩
  · unfold comparison?
    rw [hkind, hkeyword]
  · have hle : Rank.either.toNat ≤ Rank.comparison.toNat := by decide
    rw [(stops_of_kind (.inr (.inr ⟨tag, h⟩))).comparison hle,
      (stops_of_kind (.inr (.inr ⟨tag', h'⟩))).comparison hle]

end Like

def flat (chunks : List Chunk) : List Token := chunks.flatMap Chunk.tokens

@[simp] theorem flat_nil : flat [] = [] := rfl

@[simp] theorem flat_cons (k : Chunk) (chunks : List Chunk) :
    flat (k :: chunks) = k.tokens ++ flat chunks := rfl

@[simp] theorem flat_append (chunks chunks' : List Chunk) :
    flat (chunks ++ chunks') = flat chunks ++ flat chunks' := List.flatMap_append

theorem length_flat (h : chunks.Forall₂ (Chunk.Moved g') chunks') :
    chunks.length ≤ (flat chunks').length := by
  induction h with
  | nil => exact Nat.zero_le _
  | cons hk _ ih =>
    cases hk <;> simp only [flat_cons, Chunk.tokens, List.length_append, List.length_cons] <;> omega

theorem moved_append {later all' : List Chunk} (h : (chunks ++ later).Forall₂ (Chunk.Moved g') all') :
    ∃ chunks' later', chunks.Forall₂ (Chunk.Moved g') chunks' ∧ later.Forall₂ (Chunk.Moved g') later' ∧
      all' = chunks' ++ later' := by
  induction chunks generalizing all' with
  | nil => exact ⟨[], all', .nil, h, rfl⟩
  | cons k chunks ih =>
    cases h with
    | cons hk h =>
      obtain ⟨chunks', later', hchunks, hlater, rfl⟩ := ih h
      exact ⟨_ :: chunks', later', .cons hk hchunks, hlater, rfl⟩

theorem like_head (h : chunks.Forall₂ (Chunk.Moved g') chunks')
    (hrest : Like (g.head rest) (g'.head rest')) :
    Like (g.head (flat chunks ++ rest)) (g'.head (flat chunks' ++ rest')) := by
  cases h with
  | nil => exact hrest
  | cons hk _ =>
    cases hk with
    | token hsymbol => exact .of_symbol hsymbol
    | literal hkind hopen _ =>
      refine .inl ⟨hkind, ?_⟩
      simp only [flat_cons, Chunk.tokens, List.cons_append, head_cons]
      rw [keyword?, keyword?, ← hkind]
      rcases hopen with hopen | hopen <;> simp [hopen]

/-! ## Results -/

/-- What is read into the first result takes some chunks, and at least so many. Wherever else these
stand, the other reading takes them too, with a result that belongs to the first one. It needs sixteen
levels of fuel for a chunk, besides what is said, with the first chunk left out. -/
def Carries {ι : Type} (g g' : Grammar) (need least : Nat) (I : ι → Prop) (same : α → β → Prop)
    (ts : List Token) (x : Except Reject (Read α))
    (y : ι → Nat → List Token → Except Reject (Read β)) : Prop :=
  ∀ a rest, x = .ok (a, rest) → ∃ chunks, ts = flat chunks ++ rest ∧ least ≤ chunks.length ∧
    (∀ c ∈ chunks, c.Stands g) ∧
    ∀ i, I i → ∀ n, 16 * chunks.length + need ≤ n + 16 → ∀ chunks' rest',
      chunks.Forall₂ (Chunk.Moved g') chunks' → Like (g.head rest) (g'.head rest') →
      ∃ b, y i n (flat chunks' ++ rest') = .ok (b, rest') ∧ same a b

def Along {ι : Type} (I : ι → Prop) (same : α → β → Prop) (a : α) (i : ι × β) : Prop :=
  I i.1 ∧ same a i.2

namespace Carries

variable {ι : Type} {need need' least least' : Nat} {I : ι → Prop} {same : α → β → Prop}
  {same' : γ → δ → Prop} {x : Except Reject (Read α)} {y : ι → Nat → List Token → Except Reject (Read β)}

theorem error {r : Reject} : Carries g g' need least I same ts (.error r) y := nofun

theorem ok {a : α} (h : ∀ i n us, I i → ∃ b, y i n us = .ok (b, us) ∧ same a b) :
    Carries g g' need 0 I same ts (.ok (a, ts)) y := by
  rintro _ _ ⟨⟩
  refine ⟨[], rfl, Nat.zero_le _, List.forall_mem_nil _, ?_⟩
  rintro i hi n - _ rest' ⟨⟩ -
  exact h i n rest' hi

theorem congr {y' : ι → Nat → List Token → Except Reject (Read β)}
    (h : Carries g g' need least I same ts x y')
    (hy : ∀ i n us, I i → Like (g.head ts) (g'.head us) → y i n us = y' i n us) :
    Carries g g' need least I same ts x y := by
  intro a rest hx
  obtain ⟨chunks, rfl, hleast, hstands, hcarry⟩ := h a rest hx
  refine ⟨chunks, rfl, hleast, hstands, fun i hi n hn chunks' rest' hmoved hrest => ?_⟩
  rw [hy i n _ hi (like_head hmoved hrest)]
  exact hcarry i hi n hn chunks' rest' hmoved hrest

theorem weaken (h : Carries g g' need least I same ts x y) (hneed : need ≤ need')
    (hleast : least' ≤ least) :
    Carries g g' need' least' I same ts x y := by
  intro a rest hx
  obtain ⟨chunks, rfl, hlength, hstands, hcarry⟩ := h a rest hx
  exact ⟨chunks, rfl, Nat.le_trans hleast hlength, hstands, fun i hi n hn => hcarry i hi n (by omega)⟩

theorem rule {y' : ι → Nat → List Token → Except Reject (Read β)}
    (h : Carries g g' need least I same ts x y') (hneed : need + 1 ≤ need')
    (hleast : 17 ≤ need' + 16 * least)
    (hy : ∀ i n us, I i → Like (g.head ts) (g'.head us) → y i (n + 1) us = y' i n us) :
    Carries g g' need' least I same ts x y := by
  intro a rest hx
  obtain ⟨chunks, rfl, hlength, hstands, hcarry⟩ := h a rest hx
  refine ⟨chunks, rfl, hlength, hstands, fun i hi n hn chunks' rest' hmoved hrest => ?_⟩
  obtain ⟨n, rfl⟩ : ∃ k, n = k + 1 := ⟨n - 1, by omega⟩
  rw [hy i n _ hi (like_head hmoved hrest)]
  exact hcarry i hi n (by omega) chunks' rest' hmoved hrest

theorem cons {y' : ι × Token → Nat → List Token → Except Reject (Read β)} (ht : isSingle t.kind)
    (h : Carries g g' need' least' (Along I Token.Same t) same ts x y')
    (hneed : need' ≤ need + 16)
    (hy : ∀ i n t' us, I i → t.Same t' → y i n (t' :: us) = y' (i, t') n us) :
    Carries g g' need 1 I same (t :: ts) x y := by
  intro a rest hx
  obtain ⟨chunks, rfl, -, hstands, hcarry⟩ := h a rest hx
  refine ⟨.token t :: chunks, rfl, Nat.succ_le_succ (Nat.zero_le _),
    List.forall_mem_cons.mpr ⟨.token ht, hstands⟩, ?_⟩
  rintro i hi n hn _ rest' (_ | ⟨hfirst, hmoved⟩) hrest
  cases hfirst with
  | @token _ t' hsymbol =>
    rw [List.length_cons] at hn
    obtain ⟨b, hb, hsame⟩ := hcarry (i, t') ⟨hi, hsymbol⟩ n (by omega) _ rest' hmoved hrest
    exact ⟨b, (hy i n t' _ hi hsymbol).trans hb, hsame⟩

theorem bind (h : Carries g g' need least I same ts x y) (f : Read α → Except Reject (Read γ))
    (f' : ι → Nat → Read β → Except Reject (Read δ))
    (hf : ∀ a us, Carries g g' need' least' (Along I same a) same' us (f (a, us))
      (fun i n vs => f' i.1 n (i.2, vs)))
    (hneed : need' ≤ need + 16 * least) :
    Carries g g' need least I same' ts (x >>= f) (fun i n us => y i n us >>= f' i n) := by
  intro c rest hx
  cases hread : x with
  | error r =>
    rw [hread] at hx
    cases hx
  | ok r =>
    obtain ⟨a, us⟩ := r
    rw [hread] at hx
    obtain ⟨chunks, rfl, hleast, hstands, hcarry⟩ := h a us hread
    obtain ⟨later, rfl, -, hstands', hcarry'⟩ := hf a us c rest hx
    refine ⟨chunks ++ later, by rw [flat_append, List.append_assoc], ?_,
      List.forall_mem_append.mpr ⟨hstands, hstands'⟩, ?_⟩
    · rw [List.length_append]
      omega
    intro i hi n hn all' rest' hmoved hrest
    rw [List.length_append] at hn
    obtain ⟨chunks', later', hchunks, hlater, rfl⟩ := moved_append hmoved
    obtain ⟨b, hb, hsame⟩ := hcarry i hi n (by omega) chunks' (flat later' ++ rest') hchunks
      (like_head hlater hrest)
    obtain ⟨d, hd, hsame'⟩ := hcarry' (i, b) ⟨hi, hsame⟩ n (by omega) later' rest' hlater hrest
    refine ⟨d, ?_, hsame'⟩
    show (y i n _ >>= f' i n) = _
    rw [flat_append, List.append_assoc, hb]
    exact hd

theorem map (h : Carries g g' need least I same ts x y) (f : α → γ) (f' : ι → β → δ)
    (hf : ∀ i a b, I i → same a b → same' (f a) (f' i b)) :
    Carries g g' need least I same' ts (x >>= fun r => .ok (f r.1, r.2))
      (fun i n us => y i n us >>= fun r => .ok (f' i r.1, r.2)) :=
  h.bind (fun r => .ok (f r.1, r.2)) (fun i _ r => .ok (f' i r.1, r.2))
    (fun a _ => .ok fun i _ _ hi => ⟨f' i.1 i.2, rfl, hf i.1 a i.2 hi.1 hi.2⟩) (Nat.zero_le _)

end Carries

end Grammar

end Stencil

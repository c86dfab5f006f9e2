import Stencil.Proofs.Binding.Carrying
import Stencil.Proofs.Literals.Operand
import Stencil.Proofs.Scanning.Tails
/-!
# From one tag into another

The characters of an expression are cut into the same chunks in a statement as in a tag that outputs the
expression. They would be cut in another way only at a mark of the one tag that is none in the other, and
none of the tokens of an expression begins with such a mark.
-/

namespace Stencil

open Token

namespace Token

variable {m : Markup} {b b' : Bool} {c c' d : Cursor} {cs rest tail : List Char} {x : Char} {t u : Token}
  {ts us : List Token}

/-- Behind the characters, a blank and the closing mark of an output are all that is left of the source,
and the tokens up to that mark are these. -/
structure Ends (m : Markup) (b : Bool) (c : Cursor) (cs : List Char) (ts : List Token) (u : Token) :
    Prop where
  rest : c.rest = cs ++ [' ', '\x7d', '\x7d']
  tokens : remaining m (.tag exprOpener b) c = ts ++ [u]
  closing : u.kind = .closing .expr
  stop : u.span.stop = c.place + byteSize c.rest

namespace Ends

theorem tail_eq (hc : c.rest = rest ++ tail) (h : u.span.stop = c.place + byteSize c.rest)
    (hu : u.span.stop = c.place + byteSize rest) : tail = [] := by
  cases tail with
  | nil => rfl
  | cons x tail =>
    have hpos := Tiles.byteSize_pos (List.cons_ne_nil x tail)
    rw [hc, byteSize_append] at h
    omega

theorem blank (hm : exprOpener ∈ m.openers) (h : Ends m b c cs [] u) : ∀ y ∈ cs, Json.isBlank y := by
  cases Standard.expr.first hm h.tokens with
  | @closing blanks taken rest hc hblanks htaken hkind hstop =>
    rw [← List.append_assoc] at hc
    obtain rfl := tail_eq hc h.stop hstop
    rw [h.rest, List.append_nil] at hc
    have hsplit : cs ++ [' '] ++ ['\x7d', '\x7d'] = blanks ++ taken := by rw [← hc]; simp
    rcases htaken with rfl | rfl
    · have hblank := List.append_cancel_right (hsplit : _ = blanks ++ ['\x7d', '\x7d'])
      rw [← hblank, List.forall_mem_append] at hblanks
      exact hblanks.1
    · have hminus : cs ++ [' '] ++ ['\x7d', '\x7d'] = blanks ++ ['-'] ++ ['\x7d', '\x7d'] := by
        rw [hsplit]
        simp
        rfl
      have hlast := List.append_inj_right' (List.append_cancel_right hminus) rfl
      cases hlast
  | @lexeme blanks cs' x found d hc hblanks hpasses hfound hcuts ht hd hts =>
    have hinner := (lexeme_taken_ne exprOpener.closing b x cs').2
    rw [hfound, ← ht.kind, h.closing] at hinner
    cases hinner

/-- What the next token takes of the characters. In a statement it takes the same ones. -/
structure Step (m : Markup) (b : Bool) (c : Cursor) (cs : List Char) (t : Token) (ts : List Token)
    (u : Token) where
  blanks : List Char
  first : Char
  taken : List Char
  rest : List Char
  next : Cursor
  chars : cs = blanks ++ first :: (taken ++ rest)
  blank : ∀ y ∈ blanks, Json.isBlank y
  passes : exprOpener.Passes first (taken ++ rest ++ [' ', '\x7d', '\x7d'])
  lexeme : Token.lexeme exprOpener.closing b first (taken ++ rest ++ [' ', '\x7d', '\x7d']) =
    ⟨t.kind, first :: taken, rest ++ [' ', '\x7d', '\x7d']⟩
  cuts : Cuts m (.tag exprOpener b) c [t] (.tag exprOpener t.kind.endsOperand) next
  found : Found c blanks t.kind t next
  ends : Ends m t.kind.endsOperand next rest ts u
  same : ¬ Marked (rest ++ [' ', '\x7d', '\x7d']) → ∀ b' tail, b' = b ∨ first ≠ '-' →
    Token.lexeme blockOpener.closing b' first (taken ++ rest ++ ' ' :: tail) =
      ⟨t.kind, first :: taken, rest ++ ' ' :: tail⟩

theorem chars_of_passes {blanks cs' : List Char} (hblanks : ∀ y ∈ blanks, Json.isBlank y)
    (hpasses : exprOpener.Passes x cs')
    (h : cs ++ [' ', '\x7d', '\x7d'] = blanks ++ x :: cs') :
    ∃ ds, cs = blanks ++ x :: ds ∧ cs' = ds ++ [' ', '\x7d', '\x7d'] := by
  rcases List.append_eq_append_iff.mp h with ⟨between, rfl, hmark⟩ | ⟨between, rfl, hmark⟩
  · rw [List.forall_mem_append] at hblanks
    rcases between with _ | ⟨y, _ | ⟨z, between⟩⟩
    · obtain ⟨rfl, -⟩ := List.cons.inj hmark
      exact absurd hpasses.notBlank (by decide)
    · obtain ⟨-, hmark⟩ := List.cons.inj hmark
      obtain ⟨rfl, rfl⟩ := List.cons.inj hmark
      exact absurd hpasses.mark (by decide)
    · obtain ⟨-, hmark⟩ := List.cons.inj hmark
      obtain ⟨rfl, -⟩ := List.cons.inj hmark
      exact absurd (hblanks.2 '\x7d' (by simp)) (by decide)
  · cases between with
    | nil =>
      obtain ⟨rfl, -⟩ := List.cons.inj hmark
      exact absurd hpasses.notBlank (by decide)
    | cons y ds =>
      obtain ⟨rfl, rfl⟩ := List.cons.inj hmark
      exact ⟨ds, rfl, rfl⟩

theorem step (hm : exprOpener ∈ m.openers) (h : Ends m b c cs (t :: ts) u)
    (ht : ∀ kind, t.kind ≠ .closing kind) : Nonempty (Step m b c cs t ts u) := by
  cases Standard.expr.first hm h.tokens with
  | closing _ _ _ hkind => exact absurd hkind (ht _)
  | @lexeme blanks cs' x found d hc hblanks hpasses hfound hcuts hfind hd hts =>
    obtain ⟨ds, rfl, rfl⟩ := chars_of_passes hblanks hpasses (h.rest.symm.trans hc)
    rcases lexeme_split b x ds ['\x7d', '\x7d'] with ⟨escaped, hstring⟩ |
      ⟨kind, taken, rest, rfl, hlexeme, hsame⟩
    · -- the string takes all that is left, and no closing mark follows
      have hrest : d.rest = [] := by
        rw [hd, ← hfound, hstring]
        cases escaped <;> rfl
      have hnil : remaining m (.tag exprOpener found.kind.endsOperand) d = [] := remaining_nil hm hrest
      rw [hnil] at hts
      exact absurd hts (by simp)
    · obtain rfl := hfound.symm.trans hlexeme
      obtain rfl : t.kind = kind := hfind.kind
      have hsize := (hcuts.tiles hm).size
      exact ⟨⟨blanks, x, taken, rest, d, rfl, hblanks, hpasses, hlexeme, hcuts, hfind,
        ⟨hd, hts.symm, h.closing, by rw [h.stop, hsize]⟩, hsame⟩⟩

end Ends

/-! ## Marks of the other kind -/

theorem blanks_inj {blanks blanks' cs cs' : List Char} {x y : Char}
    (hblanks : ∀ z ∈ blanks, Json.isBlank z) (hblanks' : ∀ z ∈ blanks', Json.isBlank z)
    (hx : Json.isBlank x = false) (hy : Json.isBlank y = false)
    (h : blanks ++ x :: cs = blanks' ++ y :: cs') : blanks = blanks' ∧ x = y ∧ cs = cs' := by
  induction blanks generalizing blanks' with
  | nil =>
    cases blanks' with
    | nil => exact ⟨rfl, List.cons.inj h⟩
    | cons z blanks' =>
      obtain ⟨rfl, -⟩ := List.cons.inj h
      rw [hblanks' x List.mem_cons_self] at hx
      cases hx
  | cons z blanks ih =>
    rw [List.forall_mem_cons] at hblanks
    cases blanks' with
    | nil =>
      obtain ⟨rfl, -⟩ := List.cons.inj h
      rw [hblanks.1] at hy
      cases hy
    | cons z' blanks' =>
      rw [List.forall_mem_cons] at hblanks'
      obtain ⟨rfl, htail⟩ := List.cons.inj h
      obtain ⟨rfl, hrest⟩ := ih hblanks.2 hblanks'.2 htail
      exact ⟨rfl, hrest⟩

theorem Marked.first (h : Marked rest) : ∃ y ys, rest = y :: ys ∧ (y = '%' ∨ y = '-') := by
  cases h with
  | block => exact ⟨_, _, rfl, .inl rfl⟩
  | trimmedBlock => exact ⟨_, _, rfl, .inr rfl⟩
  | trimmed => exact ⟨_, _, rfl, .inr rfl⟩

theorem Ends.begins (hm : exprOpener ∈ m.openers) (h : Ends m b c cs ts u)
    (hts : ∀ t ∈ ts, ∀ kind, t.kind ≠ .closing kind) {blanks ys : List Char} {y : Char}
    (hblanks : ∀ z ∈ blanks, Json.isBlank z) (hblank : Json.isBlank y = false)
    (hmark : y ≠ '\x7d' ∨ blanks = []) (hc : c.rest = blanks ++ y :: ys) :
    ∃ t us, ts = t :: us ∧ ∃ s : Ends.Step m b c cs t us u, y = s.first ∧
      ys = s.taken ++ s.rest ++ [' ', '\x7d', '\x7d'] := by
  cases ts with
  | nil =>
    have hall : ∀ z ∈ cs ++ [' '], Json.isBlank z :=
      List.forall_mem_append.mpr ⟨h.blank hm, List.forall_mem_singleton.mpr rfl⟩
    have hchars : cs ++ [' '] ++ '\x7d' :: ['\x7d'] = blanks ++ y :: ys := by
      rw [← hc, h.rest]
      simp
    obtain ⟨hfront, hfirst, -⟩ := blanks_inj hall hblanks rfl hblank hchars
    rcases hmark with hmark | rfl
    · exact absurd hfirst.symm hmark
    · exact absurd hfront (by simp)
  | cons t us =>
    obtain ⟨s⟩ := h.step hm (hts t List.mem_cons_self)
    refine ⟨t, us, rfl, s, ?_⟩
    have hchars := h.rest.symm.trans hc
    rw [s.chars, List.append_assoc, List.cons_append] at hchars
    obtain ⟨-, hfirst, hys⟩ := blanks_inj s.blank hblanks s.passes.notBlank hblank hchars
    exact ⟨hfirst.symm, hys.symm⟩

end Token

namespace Grammar

variable {g : Grammar} {chunks : List Chunk} {t : Token} {us : List Token}

theorem flat_first (h : ∀ k ∈ chunks, k.Stands g) (hflat : flat chunks = t :: us) :
    (isSingle t.kind ∧ ∃ chunks', chunks = .token t :: chunks' ∧ us = flat chunks') ∨
      t.kind = .leftBracket ∨ t.kind = .leftBrace := by
  cases chunks with
  | nil => cases hflat
  | cons k chunks' =>
    have hk := h k List.mem_cons_self
    cases hk with
    | token hsingle =>
      obtain ⟨rfl, rfl⟩ := List.cons.inj hflat
      exact .inl ⟨hsingle, chunks', rfl, rfl⟩
    | literal hopen =>
      obtain ⟨rfl, -⟩ := List.cons.inj hflat
      exact .inr hopen

theorem flat_inner (h : ∀ k ∈ chunks, k.Stands g) :
    ∀ t ∈ flat chunks, ∀ kind, t.kind ≠ .closing kind := by
  intro t ht kind hkind
  obtain ⟨k, hk, htk⟩ := List.mem_flatMap.mp ht
  cases h k hk with
  | token hsingle =>
    obtain rfl := List.mem_singleton.mp htk
    rw [hkind] at hsingle
    cases hsingle
  | literal hopen hinner hclose =>
    simp only [Chunk.tokens, List.mem_cons, List.mem_append, List.not_mem_nil, or_false] at htk
    rcases htk with rfl | htk | rfl
    · simp [hkind] at hopen
    · exact hinner t htk kind hkind
    · simp [hkind] at hclose

end Grammar

namespace Token

open Grammar

variable {g : Grammar} {chunks : List Chunk}

namespace Ends

theorem not_block (hm : exprOpener ∈ m.openers) (h : Ends m b c cs (flat chunks) u)
    (hchunks : ∀ k ∈ chunks, k.Stands g) {blanks : List Char} (hblanks : ∀ z ∈ blanks, Json.isBlank z)
    (hc : c.rest = blanks ++ '%' :: '\x7d' :: tail) : False := by
  obtain ⟨t, us, hts, s, hfirst, htaken⟩ :=
    h.begins hm (flat_inner hchunks) hblanks rfl (.inl (by decide)) hc
  have hlexeme := s.lexeme
  rw [← hfirst, ← htaken] at hlexeme
  have hpercent : Lexeme.mk .percent ['%'] ('\x7d' :: tail) =
    ⟨t.kind, '%' :: s.taken, s.rest ++ [' ', '\x7d', '\x7d']⟩ := hlexeme
  obtain ⟨hkind, -, hrest⟩ := Lexeme.mk.inj hpercent
  rcases flat_first hchunks hts with ⟨-, chunks', rfl, rfl⟩ | hopen
  · rw [List.forall_mem_cons] at hchunks
    obtain ⟨t', us', hts', s', hfirst', -⟩ :=
      s.ends.begins hm (flat_inner hchunks.2) (List.forall_mem_nil _) rfl (.inr rfl)
        (s.ends.rest.trans hrest.symm)
    have hbrace : t'.kind = .rightBrace := by
      have hlexeme' := s'.lexeme
      rw [← hfirst', Json.IsSign.rightBrace.lexeme] at hlexeme'
      exact (Lexeme.mk.inj hlexeme').1.symm
    rcases flat_first hchunks.2 hts' with ⟨hsingle, -⟩ | hopen
    · rw [hbrace] at hsingle
      cases hsingle
    · simp [hbrace] at hopen
  · simp [← hkind] at hopen

theorem unmarked (hm : exprOpener ∈ m.openers) (h : Ends m b c cs (flat chunks) u)
    (hchunks : ∀ k ∈ chunks, k.Stands g) {blanks : List Char} (hblanks : ∀ z ∈ blanks, Json.isBlank z)
    {behind : List Char} (hc : c.rest = blanks ++ behind) : ¬ Marked behind := by
  intro hmark
  cases hmark with
  | block tail => exact h.not_block hm hchunks hblanks hc
  | trimmed tail =>
    obtain ⟨t, us, hts, s, hfirst, htaken⟩ :=
      h.begins hm (flat_inner hchunks) hblanks rfl (.inl (by decide)) hc
    have hnone := s.passes.trimmed hfirst.symm
    rw [← htaken] at hnone
    cases hnone
  | trimmedBlock tail =>
    obtain ⟨t, us, hts, s, hfirst, htaken⟩ :=
      h.begins hm (flat_inner hchunks) hblanks rfl (.inl (by decide)) hc
    have hlexeme := s.lexeme
    rw [← hfirst, ← htaken] at hlexeme
    have hminus : Lexeme.mk .minus ['-'] ('%' :: '\x7d' :: tail) =
        ⟨t.kind, '-' :: s.taken, s.rest ++ [' ', '\x7d', '\x7d']⟩ := by
      rw [← hlexeme]
      cases b <;> rfl
    obtain ⟨hkind, -, hrest⟩ := Lexeme.mk.inj hminus
    rcases flat_first hchunks hts with ⟨-, chunks', rfl, rfl⟩ | hopen
    · rw [List.forall_mem_cons] at hchunks
      exact s.ends.not_block hm hchunks.2 (List.forall_mem_nil _) (s.ends.rest.trans hrest.symm)
    · simp [← hkind] at hopen

theorem Step.place (s : Step m b c cs t us u) (h : Ends m b c cs (t :: us) u) :
    c.rest = s.blanks ++ s.first :: (s.taken ++ s.rest ++ [' ', '\x7d', '\x7d']) :=
  h.rest.trans (by simpa using congrArg (· ++ [' ', '\x7d', '\x7d']) s.chars)

theorem Step.text (s : Step m b c cs t us u) (h : Ends m b c cs (t :: us) u) :
    t.text = String.ofList (s.first :: s.taken) :=
  s.found.text_eq (by rw [s.place h, s.ends.rest]; simp)

theorem Step.moved (s : Step m b c cs t us u) (h : Ends m b c cs (t :: us) u) {b' : Bool} {c' : Cursor}
    (hhere : ¬ Marked (s.first :: (s.taken ++ s.rest ++ [' ', '\x7d', '\x7d'])))
    (hthere : ¬ Marked (s.rest ++ [' ', '\x7d', '\x7d'])) (hb : b' = b ∨ s.first ≠ '-')
    (hc' : c'.rest = cs ++ ' ' :: tail) :
    ∃ t' d', Cuts m (.tag blockOpener b') c' [t'] (.tag blockOpener t.kind.endsOperand) d' ∧
      t.Same t' ∧ d'.rest = s.rest ++ ' ' :: tail := by
  have hpasses : blockOpener.Passes s.first (s.taken ++ s.rest ++ ' ' :: tail) := by
    refine ⟨s.passes.notBlank, ?_, fun hminus => ?_⟩
    · rw [← Option.not_isSome_iff_eq_none, ← List.cons_append]
      intro hmark
      obtain ⟨ds, hds⟩ := mark_of_dropMark? (by decide) (by decide) hmark
      rw [← List.cons_append, hds] at hhere
      exact hhere (.block _)
    · rw [← Option.not_isSome_iff_eq_none]
      intro hmark
      obtain ⟨ds, hds⟩ := mark_of_dropMark? (by decide) (by decide) hmark
      rw [hminus, hds] at hhere
      exact hhere (.trimmedBlock _)
  have hchars : c'.rest = s.blanks ++ s.first :: (s.taken ++ s.rest ++ ' ' :: tail) :=
    hc'.trans (by simpa using congrArg (· ++ ' ' :: tail) s.chars)
  obtain ⟨t', d', hcuts, hfound, hd'⟩ := Cuts.lexeme (m := m) Standard.block.tight s.blank hpasses
    hchars (s.same hthere b' tail hb)
  have htext : t'.text = String.ofList (s.first :: s.taken) :=
    hfound.text_eq (by rw [hchars, hd']; simp)
  refine ⟨t', d', hcuts, ?_, hd'⟩
  show Symbol.mk _ _ = Symbol.mk _ _
  rw [hfound.kind, htext, s.text h]

/-! ## Arrays and objects -/

theorem steps (hm : exprOpener ∈ m.openers) (h : Ends m b c cs (ts ++ us) u)
    (hts : ∀ t ∈ ts, ∀ kind, t.kind ≠ .closing kind) :
    ∃ taken rest b' d, cs = taken ++ rest ∧ Cuts m (.tag exprOpener b) c ts (.tag exprOpener b') d ∧
      Ends m b' d rest us u := by
  induction ts generalizing b c cs with
  | nil => exact ⟨[], cs, b, c, rfl, .refl, h⟩
  | cons t ts ih =>
    rw [List.forall_mem_cons] at hts
    obtain ⟨s⟩ := h.step hm hts.1
    obtain ⟨taken, rest, b', d, hrest, hcuts, hends⟩ := ih s.ends hts.2
    exact ⟨s.blanks ++ s.first :: (s.taken ++ taken), rest, b', d, s.chars.trans (by rw [hrest]; simp),
      s.cuts.trans hcuts, hends⟩

end Ends

def IsBracket (kind : Kind) : Prop :=
  kind = .leftBracket ∨ kind = .leftBrace ∨ kind = .rightBracket ∨ kind = .rightBrace

theorem lexeme_bracket {closing cs taken rest : List Char} {kind : Kind}
    (h : lexeme closing b x cs = ⟨kind, taken, rest⟩) (hkind : IsBracket kind) :
    Json.IsSign x kind ∧ taken = [x] := by
  have hother : ∀ {kind' : Kind}, kind' = kind → ¬ IsBracket kind' →
      Json.IsSign x kind ∧ taken = [x] := by
    rintro _ rfl hne
    exact absurd hkind hne
  have hsign : (sign? x).getD .unknown = kind → Json.IsSign x kind := by
    rintro rfl
    revert hkind
    unfold sign?
    split <;> intro hkind <;> first | constructor | simp [IsBracket] at hkind
  have hstring : ¬ IsBracket .string := by simp [IsBracket]
  have hnumber : ¬ IsBracket .number := by simp [IsBracket]
  have hword : ¬ IsBracket .word := by simp [IsBracket]
  unfold lexeme at h
  split at h
  · exact hother (congrArg Lexeme.kind h) hstring
  split at h
  · exact hother (congrArg Lexeme.kind h) hnumber
  split at h
  · exact hother (congrArg Lexeme.kind h) hnumber
  split at h
  · exact hother (congrArg Lexeme.kind h) hword
  unfold signLexeme at h
  split at h
  · split at h
    · next hpair =>
      refine hother (congrArg Lexeme.kind h) ?_
      unfold pairSign? at hpair
      split at hpair <;> cases hpair <;> simp [IsBracket]
    · exact ⟨hsign (congrArg Lexeme.kind h), (congrArg Lexeme.taken h).symm⟩
  · exact ⟨hsign (congrArg Lexeme.kind h), (congrArg Lexeme.taken h).symm⟩

theorem suffix_blank {front taken rest : List Char} {y : Char} (h : front ++ [y] = taken ++ rest)
    (hy : Json.isBlank y = false) (hrest : ∀ z ∈ rest, Json.isBlank z) :
    rest = [] := by
  rcases List.eq_nil_or_concat rest with hnil | ⟨rest', z, rfl⟩
  · exact hnil
  · rw [List.concat_eq_append, ← List.append_assoc] at h
    have hlast := List.append_inj_right' h rfl
    obtain rfl : y = z := List.cons.inj hlast |>.1
    rw [hrest y (by simp)] at hy
    cases hy

end Token

namespace Grammar

variable {m : Markup} {g g' : Grammar} {b b' : Bool} {c c' : Cursor} {cs tail : List Char} {t w u : Token}
  {ts us : List Token} {v : Value}

theorem literal_moved (b' : Bool) (hm : m.openers = Markup.standard.openers)
    (h : Token.Ends m b c cs (t :: (ts ++ w :: us)) u) (ht : t.kind = .leftBracket ∨ t.kind = .leftBrace)
    (hts : ∀ s ∈ ts, ∀ kind, s.kind ≠ .closing kind)
    (hw : w.kind = .rightBracket ∨ w.kind = .rightBrace)
    (hvalue : g.readSlice (t.span.join w.span) = .ok v) (hc : c.At g.source) (hc' : c'.At g'.source)
    (hrest : c'.rest = cs ++ ' ' :: tail) :
    ∃ t' ts' d d' rest, Cuts m (.tag exprOpener b) c (t :: (ts ++ [w])) (.tag exprOpener true) d ∧
      Token.Ends m true d rest us u ∧
      Cuts m (.tag blockOpener b') c' (t' :: ts') (.tag blockOpener true) d' ∧
      d'.rest = rest ++ ' ' :: tail ∧
      Chunk.Moved g' (.literal t (ts ++ [w]) v) (.literal t' ts' v) := by
  have hexpr := Standard.expr.mem hm
  have hblock := Standard.block.mem hm
  obtain ⟨⟨blanks, x, taken, rest, e, rfl, hblanks, hpasses, hlexeme, hfirst, hfound, hbehind₁, -⟩⟩ :=
    h.step hexpr (by rcases ht with ht | ht <;> simp [ht])
  obtain ⟨inner, rest, b₁, e₁, rfl, hinner, hbehind₂⟩ := hbehind₁.steps hexpr hts
  obtain ⟨⟨blanks', y, taken', rest, d, rfl, -, hpasses', hlexeme', hlast, hfound', hends, -⟩⟩ :=
    hbehind₂.step hexpr (by rcases hw with hw | hw <;> simp [hw])
  obtain ⟨hsign, -⟩ := lexeme_bracket hlexeme (by rcases ht with ht | ht <;> simp [IsBracket, ht])
  obtain ⟨-, htaken⟩ := lexeme_bracket hlexeme' (by rcases hw with hw | hw <;> simp [IsBracket, hw])
  obtain rfl : taken' = [] := (List.cons.inj htaken).2
  have hflag : w.kind.endsOperand = true := by rcases hw with hw | hw <;> rw [hw] <;> rfl
  rw [hflag] at hends hlast
  have hall : Cuts m (.tag exprOpener b) c (t :: (ts ++ [w])) (.tag exprOpener true) d :=
    hfirst.trans (hinner.trans hlast)
  -- the text from the first bracket to the last
  generalize htext : x :: (taken ++ inner ++ blanks') = front
  have hplace : c.rest = blanks ++ (front ++ [y] ++ d.rest) := by
    rw [h.rest, hends.rest, ← htext]
    simp
  have hread : Json.read? (String.ofList (front ++ [y])) = some v := by
    have hspan := hall.join_eq hexpr (List.mem_append_right _ List.mem_cons_self) (by rw [hfound'.span])
    rw [show t.span.start = _ from congrArg Span.start hfound.span] at hspan
    rw [hspan, readSlice, (hall.covers hc hplace).slice, Option.getD_some, readJson] at hvalue
    split at hvalue
    · next v' hv' => rw [hv', Except.ok.inj hvalue]
    · cases hvalue
  obtain ⟨n, behind, hvalue', hbehind⟩ := Json.value?_of_read? hread
  rw [← Json.value?_blanks hblanks] at hvalue'
  have hplace' : c'.rest = blanks ++ (front ++ [y]) ++ (rest ++ ' ' :: tail) := by
    rw [hrest, ← htext]
    simp
  have hskip : Json.skip (blanks ++ (front ++ [y])) = x :: (taken ++ inner ++ blanks' ++ [y]) := by
    rw [← htext]
    exact (List.dropWhile_append_of_pos hblanks).trans
      (List.dropWhile_cons_of_neg (by rw [hpasses.notBlank]; decide))
  have hwhile : (blanks ++ (front ++ [y])).takeWhile Json.isBlank = blanks := by
    rw [← htext]
    exact Json.takeWhile_blanks hblanks hpasses.notBlank
  obtain ⟨n, rfl⟩ : ∃ k, n = k + 1 := by
    cases n with
    | zero => cases hvalue'
    | succ n => exact ⟨n, rfl⟩
  obtain ⟨t', ts', d', hcuts', hd', ht', hstart, hupto⟩ :=
    Json.cuts_brackets (m := m) (b := b') (Json.cutAt n) hvalue' hsign ht hskip hplace'
  obtain ⟨before, hsuffix⟩ := hcuts'.suffix hblock
  rw [hplace', hd', ← List.append_assoc before] at hsuffix
  have hend := List.append_cancel_right hsuffix
  rw [← List.append_assoc blanks] at hend
  obtain rfl := suffix_blank hend hpasses'.notBlank hbehind
  rw [hwhile] at hstart
  have hrest' : c'.rest = blanks ++ (front ++ [y] ++ d'.rest) := by
    rw [hplace', hd']
    simp
  exact ⟨t', ts', d, d', rest, hall, hends, hcuts', hd', .literal ht'.symm ht fun wanted more =>
    structuredOperand_written hblock hcuts' hstart hupto hc' hrest' hread wanted more⟩

/-! ## The whole expression -/

theorem skip_first {blanks ds : List Char} {x : Char} (hblanks : ∀ y ∈ blanks, Json.isBlank y)
    (hx : Json.isBlank x = false) : (Json.skip (blanks ++ x :: ds)).head? = some x := by
  rw [Json.skip, List.dropWhile_append_of_pos hblanks, List.dropWhile_cons_of_neg (by rw [hx]; decide)]
  rfl

/-- What is left of an expression stands in a statement chunk by chunk. At its start a sign could be taken
for an operator, if something stands in front. -/
theorem chunks_moved (hm : m.openers = Markup.standard.openers) {chunks : List Chunk}
    (h : Token.Ends m b c cs (flat chunks) u) (hchunks : ∀ k ∈ chunks, k.Stands g) (hc : c.At g.source)
    (hc' : c'.At g'.source) (hrest : c'.rest = cs ++ ' ' :: tail)
    (hb : b' = b ∨ (Json.skip cs).head? ≠ some '-') :
    ∃ chunks' blanks b'' d', chunks.Forall₂ (Chunk.Moved g') chunks' ∧
      Cuts m (.tag blockOpener b') c' (flat chunks') (.tag blockOpener b'') d' ∧
      d'.rest = blanks ++ ' ' :: tail ∧ ∀ y ∈ blanks, Json.isBlank y := by
  have hexpr := Standard.expr.mem hm
  induction chunks generalizing b b' c c' cs with
  | nil => exact ⟨[], cs, b', c', .nil, .refl, hrest, h.blank hexpr⟩
  | cons k chunks ih =>
    have hstands := List.forall_mem_cons.mp hchunks
    cases hstands.1 with
    | @token t hsingle =>
      have hflat : Token.Ends m b c cs (t :: flat chunks) u := h
      obtain ⟨s⟩ := hflat.step hexpr fun kind hkind => by simp [hkind, isSingle] at hsingle
      have hhere := h.unmarked hexpr hchunks s.blank (s.place hflat)
      have hthere := s.ends.unmarked hexpr hstands.2 (List.forall_mem_nil _) s.ends.rest
      have hfirst : b' = b ∨ s.first ≠ '-' := hb.imp_right fun hne hminus => by
        refine hne ((congrArg (fun cs => (Json.skip cs).head?) s.chars).trans ?_)
        rw [skip_first s.blank s.passes.notBlank, hminus]
      obtain ⟨t', d, hcuts, hsame, hd⟩ := s.moved hflat hhere hthere hfirst hrest
      obtain ⟨chunks', blanks, b'', d', hmoved, hcuts', hd', hblanks⟩ :=
        ih s.ends hstands.2 (s.cuts.at_source hc) (hcuts.at_source hc') hd (.inl rfl)
      exact ⟨.token t' :: chunks', blanks, b'', d', .cons (.token hsame) hmoved, hcuts.trans hcuts',
        hd', hblanks⟩
    | @literal t w ts v hopen hinner hclose hvalue =>
      have hflat : Token.Ends m b c cs (t :: (ts ++ w :: flat chunks)) u := by
        simpa [Chunk.tokens] using h
      obtain ⟨t', ts', d, d', rest, hcuts, hends, hcuts', hd', hmoved⟩ :=
        literal_moved b' hm hflat hopen hinner hclose hvalue hc hc' hrest
      obtain ⟨chunks', blanks, b'', e, hmoved', hcuts'', he, hblanks⟩ :=
        ih hends hstands.2 (hcuts.at_source hc) (hcuts'.at_source hc') hd' (.inl rfl)
      exact ⟨.literal t' ts' v :: chunks', blanks, b'', e, .cons hmoved hmoved', hcuts'.trans hcuts'',
        he, hblanks⟩

theorem expr_in_block (hm : m.openers = Markup.standard.openers)
    (hfunctions : g'.functions = g.functions) (h : Token.Ends m b c cs ts u) {p : Part}
    (hread : g.expr (ts ++ [u]) = .ok (p, [u])) (hc : c.At g.source) (hc' : c'.At g'.source)
    (hrest : c'.rest = cs ++ ' ' :: '%' :: '\x7d' :: tail)
    (hb : b' = b ∨ (Json.skip cs).head? ≠ some '-') :
    ∃ ts' u' d', Cuts m (.tag blockOpener b') c' (ts' ++ [u']) (.text (trimAfter m .block false)) d' ∧
      d'.rest = tail ∧ u'.kind = .closing .block ∧ ∀ more, ∃ p' : Part,
        g'.expr (ts' ++ u' :: more) = .ok (p', u' :: more) ∧ p.Same p' := by
  obtain ⟨chunks, hts, hchunks, hexpr⟩ := expr_moved hfunctions hread
  obtain rfl : ts = flat chunks := List.append_cancel_right hts
  obtain ⟨chunks', blanks, b'', d, hmoved, hcuts, hd, hblanks⟩ :=
    chunks_moved hm h hchunks hc hc' hrest hb
  have hblanks' : ∀ y ∈ blanks ++ [' '], Json.isBlank y :=
    List.forall_mem_append.mpr ⟨hblanks, List.forall_mem_singleton.mpr rfl⟩
  obtain ⟨u', d', hclosing, hfound, hd'⟩ := Cuts.closing (m := m) (b := b'') Standard.block.tight
    hblanks' (show d.rest = blanks ++ [' '] ++ (blockOpener.closing ++ tail) by
      rw [hd, List.append_assoc]
      rfl)
  refine ⟨flat chunks', u', d', hcuts.trans hclosing, hd', hfound.kind, fun more => ?_⟩
  exact hexpr chunks' (u' :: more) hmoved (.inr ⟨⟨.expr, h.closing⟩, .block, hfound.kind⟩)

end Grammar

end Stencil

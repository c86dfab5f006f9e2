import Stencil.Proofs.Compiling.Statements
import Stencil.Proofs.Printing.Read
import Stencil.Proofs.Scanning.Cutting
/-!
# Tags that bind a name

How the tags around an expression are read: an assignment of its value to a name, a loop over its value,
and the output of a value. A source of such tags includes nothing, so it compiles as soon as it can be
read.
-/

namespace Stencil

def IsWord (name : String) : Prop :=
  ∃ c cs, name.toList = c :: cs ∧ Identifier.isStart c ∧ ∀ d ∈ cs, Identifier.isPart d

theorem Keyword.isWord (word : Keyword) : IsWord word.text := by
  cases word <;> exact ⟨_, _, rfl, by decide, List.all_eq_true.mp (by decide)⟩

theorem Keyword.ofText?_text (word : Keyword) : ofText? word.text = some word := by
  cases word <;> decide

def setHead (name : String) : List Char :=
  ['\x7b', '%', ' ', 's', 'e', 't', ' '] ++ name.toList ++ [' ', '=']

/-! ## Cutting the tags -/

namespace Token

variable {m : Markup} {o : Opener} {c : Cursor} {b : Bool} {rest : List Char} {word : String}

theorem Standard.spaced (ho : Standard o) (hword : IsWord word)
    (hc : c.rest = ' ' :: (word.toList ++ ' ' :: rest)) :
    ∃ t d, Cuts m (.tag o b) c [t] (.tag o true) d ∧ d.rest = ' ' :: rest ∧ t.kind = .word ∧
      t.text = word := by
  obtain ⟨x, xs, htext, hx, hxs⟩ := hword
  have hblanks : ∀ y ∈ [' '], Json.isBlank y := List.forall_mem_singleton.mpr rfl
  have hrest : ∀ y ∈ (' ' :: rest).head?,
      Identifier.isPart y = false ∧ o.closing.head? ≠ some y := by
    rintro y ⟨⟩
    exact ⟨by decide, by cases ho <;> decide⟩
  rw [htext] at hc
  obtain ⟨t, d, hcuts, hfound, ht, hd⟩ := ho.word (m := m) (b := b) hblanks hx hxs hrest hc
  exact ⟨t, d, hcuts, hd, hfound.kind, by rw [ht, ← htext, String.ofList_toList]⟩

theorem Standard.keyword (ho : Standard o) (word : Keyword)
    (hc : c.rest = ' ' :: (word.text.toList ++ ' ' :: rest)) :
    ∃ t d, Cuts m (.tag o b) c [t] (.tag o true) d ∧ d.rest = ' ' :: rest ∧
      Grammar.keyword? t = some word := by
  obtain ⟨t, d, hcuts, hd, ht, htext⟩ := ho.spaced (m := m) (b := b) word.isWord hc
  exact ⟨t, d, hcuts, hd, by rw [Grammar.keyword?, if_pos ht, htext, word.ofText?_text]⟩

theorem Standard.closing (ho : Standard o) (hc : c.rest = ' ' :: (o.closing ++ rest)) :
    ∃ t d, Cuts m (.tag o b) c [t] (.text (trimAfter m o.kind false)) d ∧ d.rest = rest ∧
      t.kind = .closing o.kind := by
  have hblanks : ∀ y ∈ [' '], Json.isBlank y := List.forall_mem_singleton.mpr rfl
  obtain ⟨t, d, hcuts, hfound, hd⟩ := Cuts.closing (m := m) (b := b) ho.tight hblanks hc
  exact ⟨t, d, hcuts, hd, hfound.kind⟩

theorem cuts_assign (hc : c.rest = ' ' :: '=' :: ' ' :: rest) :
    ∃ t d, Cuts m (.tag blockOpener b) c [t] (.tag blockOpener false) d ∧ d.rest = ' ' :: rest ∧
      t.kind = .assign := by
  have hblanks : ∀ y ∈ [' '], Json.isBlank y := List.forall_mem_singleton.mpr rfl
  have hpasses : blockOpener.Passes '=' (' ' :: rest) :=
    Standard.block.passes rfl (by decide) (by decide) _
  have hlexeme : lexeme blockOpener.closing b '=' (' ' :: rest) = ⟨.assign, ['='], ' ' :: rest⟩ := rfl
  obtain ⟨t, d, hcuts, hfound, hd⟩ :=
    Cuts.lexeme (m := m) Standard.block.tight hblanks hpasses (c := c) hc hlexeme
  exact ⟨t, d, hcuts, hd, hfound.kind⟩

theorem cuts_set {name : String} (trim : Trim) (h : m.openers = Markup.standard.openers)
    (hname : IsWord name) (hc : c.rest = setHead name ++ ' ' :: rest) :
    ∃ o s t a d, Cuts m (.text trim) c [o, s, t, a] (.tag blockOpener false) d ∧ d.rest = ' ' :: rest ∧
      o.kind = .opening .block ∧ Grammar.keyword? s = some .setWord ∧ t.kind = .word ∧
      t.text = name ∧ a.kind = .assign := by
  have hmark : c.rest = blockOpener.mark ++
      ' ' :: (Keyword.setWord.text.toList ++ ' ' :: (name.toList ++ ' ' :: '=' :: ' ' :: rest)) := by
    rw [hc, setHead]
    simp
    rfl
  obtain ⟨o, d, ho, hopening, hd⟩ := Standard.block.opening h trim hmark
  obtain ⟨s, d, hs, hd, hkeyword⟩ := Standard.block.keyword (m := m) (b := false) .setWord hd
  obtain ⟨t, d, ht, hd, htword, httext⟩ := Standard.block.spaced (m := m) (b := true) hname hd
  obtain ⟨a, d, ha, hd, hassign⟩ := cuts_assign (m := m) (b := true) hd
  exact ⟨o, s, t, a, d, ho.trans (hs.trans (ht.trans ha)), hd, hopening.kind, hkeyword, htword, httext,
    hassign⟩

end Token

/-! ## Reading the tags -/

namespace Grammar

variable {g : Grammar} {o s t a u : Token} {us more : List Token} {p : Part} {sts : List Statement}

theorem tagEnd_closing {kind : TagKind} (hu : u.kind = .closing kind) (more : List Token) :
    g.tagEnd kind (u :: more) = .ok more := by
  simp [tagEnd, head_cons, hu]

theorem kind_of_keyword {word : Keyword} (h : keyword? t = some word) : t.kind = .word := by
  unfold keyword? at h
  split at h
  · assumption
  · cases h

theorem target_word {name : String} (h : IsWord name) : g.target name = g.paths.split name := by
  obtain ⟨c, cs, hname, hc, -⟩ := h
  have hne : (c == '/') = false := by
    rw [beq_eq_false_iff_ne]
    exact Identifier.ne_of_isStart hc (by decide)
  unfold target PathStyle.split
  cases g.paths with
  | dots => rfl
  | slashes => rw [hname, List.dropWhile_cons_of_neg (by rw [hne]; decide)]

theorem Statements.assign (ho : o.kind = .opening .block) (hs : keyword? s = some .setWord)
    (ht : t.kind = .word) (ha : a.kind = .assign) (hread : g.expr us = .ok (p, u :: more))
    (hu : u.kind = .closing .block) (hmore : g.Statements more sts) :
    g.Statements (o :: s :: t :: a :: us)
      (⟨some (.set (g.target t.text) p.expr (t.span.join p.span)), s.span⟩ :: sts) := by
  have hpiece : g.piece [] o (s :: t :: a :: us) =
      .ok ⟨some (.set (g.target t.text) p.expr (t.span.join p.span)), [], g.tagEnd .block (u :: more)⟩ := by
    simp [piece, ho, statementPiece, statement, head_cons, kind_of_keyword hs, hs, keywordStatement,
      expect_kind ht, expect_kind ha, hread]
  exact .cons hpiece (tagEnd_closing hu more) hmore

theorem Statements.loop (ho : o.kind = .opening .block) (hs : keyword? s = some .forWord)
    (ht : t.kind = .word) (ha : keyword? a = some .inWord) (hread : g.expr us = .ok (p, u :: more))
    (hu : u.kind = .closing .block) (hmore : g.Statements more sts) :
    g.Statements (o :: s :: t :: a :: us) (⟨some (.loop (.item t.word) p), s.span⟩ :: sts) := by
  have hbinder : g.binder (t :: a :: us) = .ok (.item t.word, a :: us) := by
    simp [binder, expect_kind ht, head_cons, kind_of_keyword ha]
  have hpiece : g.piece [] o (s :: t :: a :: us) =
      .ok ⟨some (.loop (.item t.word) p), [.loop], g.tagEnd .block (u :: more)⟩ := by
    simp [piece, ho, statementPiece, statement, head_cons, kind_of_keyword hs, hs, keywordStatement,
      hbinder, expectKeyword, ha, hread]
  exact .cons hpiece (tagEnd_closing hu more) hmore

theorem Statements.endFor (ho : o.kind = .opening .block) (hs : keyword? s = some .endFor)
    (hu : u.kind = .closing .block) (hmore : g.Statements more sts) :
    g.Statements (o :: s :: u :: more) (⟨some (.endFor s.span), s.span⟩ :: sts) := by
  have hpiece : g.piece [.loop] o (s :: u :: more) =
      .ok ⟨some (.endFor s.span), [], g.tagEnd .block (u :: more)⟩ := by
    simp [piece, ho, statementPiece, statement, head_cons, kind_of_keyword hs, hs, keywordStatement,
      ending, Opened.close?]
  exact .cons hpiece (tagEnd_closing hu more) hmore

theorem Statements.output (ho : o.kind = .opening .expr) (hread : g.expr us = .ok (p, u :: more))
    (hu : u.kind = .closing .expr) (hmore : g.Statements more sts) :
    g.Statements (o :: us) (⟨some (.output p.expr (o.span.join u.span)), (g.head us).span⟩ :: sts) := by
  have hpiece : g.piece [] o us = .ok ⟨some (.output p.expr (o.span.join u.span)), [], .ok more⟩ := by
    simp [piece, ho, hread, expect_kind hu]
  exact .cons hpiece rfl hmore

theorem Statements.outline {ts : List Token} (h : g.Statements ts sts)
    (hwalk : Opened.walk? [] (Statement.roles sts) = some []) : g.outline ts = ⟨Statement.tags sts, none⟩ :=
  (outlineFrom_statements h (Nat.le_refl _) []).1 [] hwalk

end Grammar

/-! ## Compiling the tags -/

namespace Engine

variable {e : Engine} {source : String} {tags : List Tag}

theorem gathers_plain (n : Nat) (base : String)
    (h : ∀ t ∈ tags, ∀ name place span, t ≠ .inclusion name place span) (s : Gathering) :
    e.Gathers n base tags s tags s := by
  induction tags with
  | nil => exact .nil
  | cons t tags ih =>
    rw [List.forall_mem_cons] at h
    exact .other h.1 (ih h.2)

theorem compile_plain (houtline : e.outline source = ⟨tags, none⟩)
    (h : ∀ t ∈ tags, ∀ name place span, t ≠ .inclusion name place span) :
    (e.compile source).result = .ok ⟨.of e.folding source tags, []⟩ := by
  obtain ⟨n, hfuel⟩ := e.fuel_eq
  rw [compile_iff hfuel, houtline]
  exact ⟨rfl, tags, .start none, rfl, gathers_plain n "" h _⟩

end Engine

end Stencil

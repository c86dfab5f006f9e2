import Stencil.Proofs.Binding.Scalars
import Stencil.Proofs.Binding.Tags
import Stencil.Proofs.Meaning.Places
/-!
# Sources that bind a name and read it

In the standard markup the text of an expression can be assigned to a name, and it can be looped over. The
name can be output in both places, unless it is one of the words that expressions keep for themselves.
-/

namespace Stencil

open Token

/-! ## Tags as text -/

def outputTag (x : String) : String := "\x7b\x7b " ++ x ++ " \x7d\x7d"

def setTag (name x : String) : String := "\x7b% set " ++ name ++ " = " ++ x ++ " %\x7d"

def forTag (name x : String) : String := "\x7b% for " ++ name ++ " in " ++ x ++ " %\x7d"

def endForTag : String := "\x7b% endfor %\x7d"

theorem outputTag_toList (x : String) :
    (outputTag x).toList = exprOpener.mark ++ ' ' :: (x.toList ++ [' ', '\x7d', '\x7d']) := by
  rw [outputTag, String.toList_append, String.toList_append]
  rfl

theorem setTag_toList (name x : String) :
    (setTag name x).toList = setHead name ++ ' ' :: (x.toList ++ [' ', '%', '\x7d']) := by
  simp [setTag, setHead]

theorem forTag_toList (name x : String) : (forTag name x).toList =
    blockOpener.mark ++ ' ' :: ("for".toList ++ ' ' :: (name.toList ++ ' ' ::
      ("in".toList ++ ' ' :: (x.toList ++ [' ', '%', '\x7d'])))) := by
  simp [forTag]
  rfl

/-! ## Expressions in tags of their own -/

/-- The text is read as this expression, where a tag that is the whole source outputs it. -/
def Engine.Expresses (e : Engine) (x : String) (tree : Expr) : Prop :=
  e.outline (outputTag x) = ⟨[.output tree ⟨0, byteSize (outputTag x).toList⟩], none⟩

namespace Grammar

variable {g : Grammar} {n : Nat} {o u : Token} {ts us : List Token} {tree : Expr} {span : Span}

theorem cons_of_expect {kind : Kind} (hkind : kind ≠ .endOfInput) (h : g.expect kind ts = .ok (u, us)) :
    ts = u :: us ∧ u.kind = kind := by
  unfold expect at h
  split at h
  · next hhead =>
    obtain ⟨t, vs, rfl, ht⟩ := cons_of_head hhead hkind
    cases h
    exact ⟨rfl, ht⟩
  · cases h

theorem outlineFrom_output (ho : o.kind = .opening .expr)
    (h : g.outlineFrom (n + 1) [] (o :: ts) = ⟨[.output tree span], none⟩) :
    ∃ p u more, g.expr ts = .ok (p, u :: more) ∧ u.kind = .closing .expr ∧ p.expr = tree ∧
      o.span.join u.span = span := by
  rw [outlineFrom] at h
  cases hpiece : g.piece [] o ts with
  | error r =>
    rw [hpiece] at h
    cases h
  | ok q =>
    rw [hpiece] at h
    simp only [piece, ho] at hpiece
    obtain ⟨⟨p, us⟩, hexpr, hpiece⟩ := except_ok_of_bind hpiece
    obtain ⟨⟨u, more⟩, hexpect, hpiece⟩ := except_ok_of_bind hpiece
    cases hpiece
    obtain ⟨rfl, hu⟩ := cons_of_expect (by decide) hexpect
    obtain ⟨houtput, -⟩ := List.cons.inj (congrArg Outline.tags h)
    obtain ⟨htree, hspan⟩ := Tag.output.inj houtput
    exact ⟨p, u, more, hexpr, hu, htree, hspan⟩

end Grammar

namespace Engine

variable {e : Engine} {x name : String} {tree : Expr}

theorem Expresses.ends (he : e.markup.openers = Markup.standard.openers) (h : e.Expresses x tree) :
    ∃ c ts u p, Token.Ends e.markup false c (' ' :: x.toList) ts u ∧
      (e.grammar (outputTag x)).expr (ts ++ [u]) = .ok (p, [u]) ∧
      c.At (e.grammar (outputTag x)).source ∧ p.expr = tree := by
  obtain ⟨o, c, hcuts, ho, hc⟩ := Standard.expr.opening he .nothing (c := .start (outputTag x).toList)
    (outputTag_toList x)
  have hscan : scan e.markup (outputTag x) = o :: remaining e.markup (.tag exprOpener false) c := by
    rw [scan_eq, (hcuts.remaining_eq trivial).2]
    rfl
  have hsize := (hcuts.tiles trivial).size
  obtain ⟨stop, rest, htiles, -⟩ := scan_tiles e.markup (outputTag x)
  rw [Expresses, outline, Grammar.outline, hscan] at h
  obtain ⟨p, u, more, hexpr, hu, htree, hspan⟩ := Grammar.outlineFrom_output ho.kind h
  obtain ⟨ts, hts⟩ := Grammar.expr_leaves _ hexpr
  rw [hscan, ← hts] at htiles
  obtain ⟨hopening, hascend⟩ := List.pairwise_cons.mp htiles.ascend
  have hstop : u.span.stop = byteSize (outputTag x).toList := by
    have hbehind := hopening u (by simp)
    obtain ⟨-, -, hlt, -⟩ := htiles.takes u (by simp)
    have hmax : max o.span.stop u.span.stop = byteSize (outputTag x).toList := congrArg Span.stop hspan
    omega
  -- nothing stands behind the end of the source
  obtain rfl : more = [] := by
    rw [List.eq_nil_iff_forall_not_mem]
    intro t ht
    have hbehind := List.rel_of_pairwise_cons (List.pairwise_append.mp hascend).2.1 ht
    obtain ⟨-, -, hlt, hle⟩ := htiles.takes t (by simp [ht])
    have hend := htiles.size
    omega
  rw [← hts] at hexpr
  refine ⟨c, ts, u, p, ⟨hc, hts.symm, hu, ?_⟩, hexpr, ?_, htree⟩
  · rw [hstop, ← hsize]
    exact (Nat.zero_add _).symm
  · exact hcuts.at_source (Cursor.start_at _)

theorem Expresses.unsigned (he : e.markup.openers = Markup.standard.openers) (h : e.Expresses x tree)
    {c : Machine.Context} {l : Layer} {items : List Value} (heval : tree.eval c l = .ok (.array items)) :
    (Json.skip (' ' :: x.toList)).head? ≠ some '-' := by
  obtain ⟨d, ts, u, p, hends, hexpr, -, rfl⟩ := h.ends he
  obtain ⟨chunks, hts, hchunks, -⟩ := Grammar.expr_moved rfl hexpr
  obtain rfl : ts = Grammar.flat chunks := List.append_cancel_right hts
  intro hminus
  have hsigned := Grammar.signed_of_first (Standard.expr.mem he) hends hchunks hminus
  exact (Grammar.expr_scalar hsigned hexpr).eval_ne_array c l items heval

end Engine

/-! ## Single tags -/

/-- From one place to the other stands a statement, which is read as this tag. -/
def StandsTag (m : Markup) (g : Grammar) (trim : Trim) (c : Cursor) (t : Tag) (trim' : Trim)
    (d : Cursor) : Prop :=
  ∃ word, ∀ sts, g.Statements (remaining m (.text trim') d) sts →
    g.Statements (remaining m (.text trim) c) (⟨some t, word⟩ :: sts)

theorem StandsTag.of_cuts {m : Markup} {g : Grammar} {trim trim' : Trim} {c d : Cursor} {t : Tag}
    {ts : List Token} (hcuts : Cuts m (.text trim) c ts (.text trim') d) (word : Span)
    (h : ∀ sts, g.Statements (remaining m (.text trim') d) sts →
      g.Statements (ts ++ remaining m (.text trim') d) (⟨some t, word⟩ :: sts)) :
    StandsTag m g trim c t trim' d := by
  refine ⟨word, fun sts hsts => ?_⟩
  rw [(hcuts.remaining_eq trivial).2]
  exact h sts hsts

/-- All that is left of the source is read as these tags. -/
inductive StandTags (m : Markup) (g : Grammar) : Trim → Cursor → List Tag → Prop
  | nil {trim : Trim} {c : Cursor} : c.rest = [] → StandTags m g trim c []
  | cons {trim trim' : Trim} {c d : Cursor} {t : Tag} {ts : List Tag} : StandsTag m g trim c t trim' d →
    StandTags m g trim' d ts → StandTags m g trim c (t :: ts)

theorem StandTags.statements {m : Markup} {g : Grammar} {trim : Trim} {c : Cursor} {tags : List Tag}
    (h : StandTags m g trim c tags) : ∃ sts, g.Statements (remaining m (.text trim) c) sts ∧
      Statement.tags sts = tags ∧ Statement.roles sts = tags.map Tag.role := by
  induction h with
  | @nil trim c hc =>
    rw [remaining_nil (show (Mode.text trim).Ready m from trivial) hc]
    exact ⟨[], .nil, rfl, rfl⟩
  | @cons trim trim' c d t tags hstands _ ih =>
    obtain ⟨word, hread⟩ := hstands
    obtain ⟨sts, hsts, htags, hroles⟩ := ih
    exact ⟨_, hread _ hsts, by rw [Statement.tags_cons, htags]; rfl, congrArg (t.role :: ·) hroles⟩

theorem Engine.outline_of_tags {e : Engine} {source : String} {tags : List Tag}
    (h : StandTags e.markup (e.grammar source) .nothing (.start source.toList) tags)
    (hwalk : Opened.walk? [] (tags.map Tag.role) = some []) : e.outline source = ⟨tags, none⟩ := by
  obtain ⟨sts, hsts, rfl, hroles⟩ := h.statements
  rw [← hroles] at hwalk
  exact hsts.outline hwalk

/-- The words that expressions have a use for, which are no names there. -/
def Keyword.isReserved : Keyword → Bool
  | .trueWord | .falseWord | .nullWord | .andWord | .orWord | .notWord | .inWord => true
  | _ => false

def IsReadable (name : String) : Prop :=
  ∀ word, Keyword.ofText? name = some word → word.isReserved = false

theorem IsReadable.of_notKeyword {name : String} (h : Keyword.ofText? name = none) : IsReadable name := by
  intro word hword
  rw [h] at hword
  cases hword

namespace Grammar

variable {m : Markup} {g : Grammar} {c : Cursor} {t : Token} {rest : List Char} {name x : String}

theorem wordOperand_readable (h : IsReadable t.text) (ht : t.kind = .word) :
    wordOperand t = .ok (.name t.word) ∧ keyword? t ≠ some .notWord := by
  have hkeyword : ∀ word, keyword? t = some word → word.isReserved = false := by
    rw [keyword?, if_pos ht]
    exact h
  constructor
  · unfold wordOperand
    split
    case h_8 => rfl
    all_goals
      next hword => cases hkeyword _ hword
  · intro hnot
    cases hkeyword _ hnot

/-- A word that expressions keep for themselves is read as something else. -/
theorem wordOperand_reserved (h : ¬ IsReadable t.text) (ht : t.kind = .word) (word : Word) :
    wordOperand t ≠ .ok (.name word) := by
  intro hoperand
  refine h fun keyword hkeyword => ?_
  have hword : keyword? t = some keyword := by rw [keyword?, if_pos ht, hkeyword]
  rw [wordOperand, hword] at hoperand
  cases keyword <;> first | rfl | cases hoperand

theorem output_name (hm : m.openers = Markup.standard.openers) (trim : Trim) (hname : IsWord name)
    (hread : IsReadable name) (hc : c.rest = (outputTag name).toList ++ rest) :
    ∃ place span trim' d,
      StandsTag m g trim c (.output (.name ⟨name, place⟩) span) trim' d ∧ d.rest = rest := by
  rw [outputTag_toList, List.append_assoc, List.cons_append, List.append_assoc] at hc
  obtain ⟨o, d₁, hopening, ho, hd₁⟩ := Standard.expr.opening hm trim hc
  obtain ⟨t, d₂, hword, hd₂, ht, rfl⟩ := Standard.expr.spaced (m := m) (b := false) hname hd₁
  obtain ⟨u, d, hclosing, hd, hu⟩ := Standard.expr.closing (m := m) (b := true) hd₂
  obtain ⟨hoperand, hnot⟩ := wordOperand_readable hread ht
  refine ⟨t.span, o.span.join u.span, _, d,
    .of_cuts (hopening.trans (hword.trans hclosing)) t.span fun sts hmore => ?_, hd⟩
  exact .output ho.kind (expr_word .expr ht hnot hoperand hu) hu hmore

theorem endFor_tag (hm : m.openers = Markup.standard.openers) (trim : Trim)
    (hc : c.rest = endForTag.toList ++ rest) :
    ∃ place trim' d, StandsTag m g trim c (.endFor place) trim' d ∧ d.rest = rest := by
  have hmark : c.rest = blockOpener.mark ++
      ' ' :: (Keyword.endFor.text.toList ++ ' ' :: (blockOpener.closing ++ rest)) := hc
  obtain ⟨o, d₁, hopening, ho, hd₁⟩ := Standard.block.opening hm trim hmark
  obtain ⟨t, d₂, hword, hd₂, ht⟩ := Standard.block.keyword (m := m) (b := false) .endFor hd₁
  obtain ⟨u, d, hclosing, hd, hu⟩ := Standard.block.closing (m := m) (b := true) hd₂
  refine ⟨t.span, _, d,
    .of_cuts (hopening.trans (hword.trans hclosing)) t.span fun sts hmore => ?_, hd⟩
  exact .endFor ho.kind ht hu hmore

end Grammar

namespace Engine

variable {e : Engine} {c : Cursor} {rest : List Char} {source name x : String} {tree : Expr}

/-- An expression up to the end of a statement. At its start a sign could be taken for an operator, if
something stands in front. -/
theorem Expresses.in_block (he : e.markup.openers = Markup.standard.openers) (hx : e.Expresses x tree)
    {b : Bool} (hstart : c.At (e.grammar source).source)
    (hc : c.rest = ' ' :: (x.toList ++ ' ' :: '%' :: '\x7d' :: rest))
    (hb : b = false ∨ (Json.skip (' ' :: x.toList)).head? ≠ some '-') :
    ∃ ts u p trim d, Cuts e.markup (.tag blockOpener b) c (ts ++ [u]) (.text trim) d ∧ d.rest = rest ∧
      u.kind = .closing .block ∧
      (e.grammar source).expr (ts ++ u :: remaining e.markup (.text trim) d) =
        .ok (p, u :: remaining e.markup (.text trim) d) ∧ tree.erase = p.expr.erase := by
  obtain ⟨c', ts, u, p, hends, hexpr, hstart', rfl⟩ := hx.ends he
  have hfunctions : (e.grammar source).functions = (e.grammar (outputTag x)).functions := rfl
  obtain ⟨us, v, d, hcuts, hd, hv, hread⟩ :=
    Grammar.expr_in_block he hfunctions hends hexpr hstart' hstart hc hb
  obtain ⟨q, hq, hsame⟩ := hread (remaining e.markup (.text (trimAfter e.markup .block false)) d)
  exact ⟨us, v, q, _, d, hcuts, hd, hv, hq, hsame⟩

theorem set_tag (he : e.markup.openers = Markup.standard.openers) (trim : Trim) (hname : IsWord name)
    (hx : e.Expresses x tree) (hstart : c.At (e.grammar source).source)
    (hc : c.rest = (setTag name x).toList ++ rest) :
    ∃ tree' place trim' d, tree.erase = tree'.erase ∧
      StandsTag e.markup (e.grammar source) trim c (.set (e.markup.paths.split name) tree' place)
        trim' d ∧ d.rest = rest := by
  rw [setTag_toList, List.append_assoc, List.cons_append, List.append_assoc] at hc
  obtain ⟨o, s, t, a, d₁, hhead, hd₁, ho, hs, ht, rfl, ha⟩ := cuts_set trim he hname hc
  obtain ⟨ts, u, p, trim', d, hcuts, hd, hu, hread, hsame⟩ :=
    hx.in_block he (hhead.at_source hstart) hd₁ (.inl rfl)
  refine ⟨p.expr, t.span.join p.span, trim', d, hsame,
    .of_cuts (hhead.trans hcuts) s.span fun sts hmore => ?_, hd⟩
  have htarget : e.markup.paths.split t.text = (e.grammar source).target t.text :=
    (Grammar.target_word (g := e.grammar source) hname).symm
  rw [htarget, List.append_assoc, List.append_assoc]
  exact .assign ho hs ht ha hread hu hmore

theorem for_tag (he : e.markup.openers = Markup.standard.openers) (trim : Trim) (hname : IsWord name)
    (hx : e.Expresses x tree) (hunsigned : (Json.skip (' ' :: x.toList)).head? ≠ some '-')
    (hstart : c.At (e.grammar source).source) (hc : c.rest = (forTag name x).toList ++ rest) :
    ∃ part place trim' d, tree.erase = part.expr.erase ∧
      StandsTag e.markup (e.grammar source) trim c (.loop (.item ⟨name, place⟩) part) trim' d ∧
        d.rest = rest := by
  simp only [forTag_toList, List.append_assoc, List.cons_append] at hc
  obtain ⟨o, d₁, hopening, ho, hd₁⟩ := Standard.block.opening he trim hc
  obtain ⟨s, d₂, hcuts₁, hd₂, hs⟩ := Standard.block.keyword (m := e.markup) (b := false) .forWord hd₁
  obtain ⟨t, d₃, hcuts₂, hd₃, ht, rfl⟩ := Standard.block.spaced (m := e.markup) (b := true) hname hd₂
  obtain ⟨a, d₄, hcuts₃, hd₄, ha⟩ := Standard.block.keyword (m := e.markup) (b := true) .inWord hd₃
  have hhead := hopening.trans (hcuts₁.trans (hcuts₂.trans hcuts₃))
  obtain ⟨ts, u, p, trim', d, hcuts, hd, hu, hread, hsame⟩ :=
    hx.in_block he (hhead.at_source hstart) hd₄ (.inr hunsigned)
  refine ⟨p, t.span, trim', d, hsame, .of_cuts (hhead.trans hcuts) s.span fun sts hmore => ?_, hd⟩
  rw [List.append_assoc]
  exact .loop ho.kind hs ht ha (by simpa using hread) hu hmore

/-! ## Whole sources -/

theorem outline_set (he : e.markup.openers = Markup.standard.openers) (hname : IsWord name)
    (hread : IsReadable name) (hx : e.Expresses x tree) :
    ∃ tree' place place' span, tree.erase = tree'.erase ∧
      e.outline (setTag name x ++ outputTag name) =
        ⟨[.set (e.markup.paths.split name) tree' place, .output (.name ⟨name, place'⟩) span], none⟩ := by
  generalize hsource : setTag name x ++ outputTag name = source
  have hchars : (Cursor.start source.toList).rest =
      (setTag name x).toList ++ ((outputTag name).toList ++ []) := by
    rw [← hsource, List.append_nil, ← String.toList_append]
    rfl
  obtain ⟨tree', place, trim, c, hsame, hset, hc⟩ :=
    set_tag he .nothing hname hx (Cursor.start_at _) hchars
  obtain ⟨place', span, trim', d, houtput, hd⟩ := Grammar.output_name he trim hname hread hc
  exact ⟨tree', place, place', span, hsame, outline_of_tags (.cons hset (.cons houtput (.nil hd))) rfl⟩

theorem outline_for (he : e.markup.openers = Markup.standard.openers) (hname : IsWord name)
    (hread : IsReadable name) (hx : e.Expresses x tree)
    (hunsigned : (Json.skip (' ' :: x.toList)).head? ≠ some '-') :
    ∃ part place place' span stop, tree.erase = part.expr.erase ∧
      e.outline (forTag name x ++ outputTag name ++ endForTag) =
        ⟨[.loop (.item ⟨name, place⟩) part, .output (.name ⟨name, place'⟩) span, .endFor stop], none⟩ := by
  generalize hsource : forTag name x ++ outputTag name ++ endForTag = source
  have hchars : (Cursor.start source.toList).rest =
      (forTag name x).toList ++ ((outputTag name).toList ++ (endForTag.toList ++ [])) := by
    rw [← hsource, List.append_nil, ← List.append_assoc, ← String.toList_append, ← String.toList_append]
    rfl
  obtain ⟨part, place, trim, c, hsame, hloop, hc⟩ :=
    for_tag he .nothing hname hx hunsigned (Cursor.start_at _) hchars
  obtain ⟨place', span, trim', d, houtput, hd⟩ := Grammar.output_name he trim hname hread hc
  obtain ⟨stop, trim'', d', hend, hd'⟩ := Grammar.endFor_tag he trim' hd
  exact ⟨part, place, place', span, stop, hsame,
    outline_of_tags (.cons hloop (.cons houtput (.cons hend (.nil hd')))) rfl⟩

end Engine

end Stencil

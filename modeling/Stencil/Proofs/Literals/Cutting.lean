import Stencil.Grammar.Expr
import Stencil.Proofs.Scanning.Cutting
/-!
# JSON inside of a tag

A tag is cut into tokens by rules of its own, which know nothing of JSON. Still a JSON text inside of a
statement is cut at the ends of its strings, its numerals and its words, so its brackets are found and
nothing in it is taken for the end of the tag.
-/

namespace Stencil

open Token

variable {n levels : Nat} {cs us rest tail blanks : List Char} {s : List Char} {v : Value}

/-! ## Strings -/

namespace Json

theorem stringRest_cons {c : Char} (hquote : c ≠ '"') (hslash : c ≠ '\\') (cs : List Char) :
    (stringRest false (c :: cs)).2 = (stringRest false cs).2 := by
  have hflag : (c == '\\') = false := beq_eq_false_iff_ne.mpr hslash
  simp [stringRest, hquote, hflag]

theorem stringRest_escaped (c : Char) (cs : List Char) :
    (stringRest false ('\\' :: c :: cs)).2 = (stringRest false cs).2 := by
  simp [stringRest]

theorem ne_of_hexDigit {c : Char} {k : Nat} (h : hexDigit? c = some k) : c ≠ '"' ∧ c ≠ '\\' := by
  constructor <;>
  · rintro rfl
    cases h

theorem stringRest_of_hex4 {a b c d : Char} {k : Nat} (h : hex4? a b c d = some k) (cs : List Char) :
    (stringRest false ('\\' :: 'u' :: a :: b :: c :: d :: cs)).2 = (stringRest false cs).2 := by
  simp only [hex4?, bind, Option.bind_eq_some_iff] at h
  obtain ⟨_, ha, _, hb, _, hc, _, hd, -⟩ := h
  rw [stringRest_escaped, stringRest_cons (ne_of_hexDigit ha).1 (ne_of_hexDigit ha).2,
    stringRest_cons (ne_of_hexDigit hb).1 (ne_of_hexDigit hb).2,
    stringRest_cons (ne_of_hexDigit hc).1 (ne_of_hexDigit hc).2,
    stringRest_cons (ne_of_hexDigit hd).1 (ne_of_hexDigit hd).2]

theorem rest_of_return {x : Option (List Char × List Char)} {f : List Char → List Char}
    (h : (do let (cs, rest) ← x; return (f cs, rest)) = some (s, rest)) : ∃ t, x = some (t, rest) := by
  cases x with
  | none => cases h
  | some found =>
    obtain ⟨t, rest'⟩ := found
    cases h
    exact ⟨t, rfl⟩

theorem stringRest_of_body (h : stringBody? n cs = some (s, rest)) (tail : List Char) :
    (stringRest false (cs ++ tail)).2 = rest ++ tail := by
  fun_induction stringBody? n cs generalizing s with
  | case1 => cases h
  | case2 => cases h
  | case3 =>
    cases h
    rfl
  | case4 n a b c d rest' ih ih' =>
    simp only [bind, Option.bind_eq_some_iff] at h
    obtain ⟨unit, hunit, h⟩ := h
    simp only [List.cons_append]
    rw [stringRest_of_hex4 hunit]
    split at h
    · split at h
      · next e f g h' rest' =>
        obtain ⟨low, hlow, h⟩ := Option.bind_eq_some_iff.mp h
        split at h
        · obtain ⟨t, ht⟩ := rest_of_return h
          simp only [List.cons_append]
          rw [stringRest_of_hex4 hlow]
          exact ih _ ht
        · cases h
      · cases h
    · split at h
      · cases h
      · obtain ⟨t, ht⟩ := rest_of_return h
        exact ih' ht
  | case5 n c rest' _ ih =>
    obtain ⟨_, -, h⟩ := Option.bind_eq_some_iff.mp h
    obtain ⟨t, ht⟩ := rest_of_return h
    rw [List.cons_append, List.cons_append, stringRest_escaped]
    exact ih ht
  | case6 => cases h
  | case7 n c rest' hquote _ _ hplain ih =>
    obtain ⟨t, ht⟩ := rest_of_return h
    simp only [Bool.or_eq_true, beq_iff_eq, not_or] at hplain
    rw [List.cons_append, stringRest_cons hquote hplain.2]
    exact ih ht

theorem lexeme_string {text : String} (h : string? cs = some (text, rest)) (closing : List Char)
    (b : Bool) (tail : List Char) : ∃ ds, cs = '"' :: ds ∧
      (lexeme closing b '"' (ds ++ tail)).kind = .string ∧
      (lexeme closing b '"' (ds ++ tail)).rest = rest ++ tail := by
  unfold string? at h
  split at h
  · next ds =>
    rw [Option.map_eq_some_iff] at h
    obtain ⟨⟨body, rest'⟩, hbody, h⟩ := h
    cases h
    exact ⟨ds, rfl, rfl, stringRest_of_body hbody tail⟩
  · cases h

/-! ## Numerals -/

theorem isDigit_of_isPart {c : Char} (h : Identifier.isPart c = false) : c.isDigit = false := by
  simp only [Identifier.isPart, Identifier.isLetter, Char.isAlphanum, Bool.or_eq_false_iff] at h
  exact h.2.1.2.2

/-- Neither a word nor a numeral goes on here, and no statement ends. -/
def Separates (cs : List Char) : Prop :=
  ∀ c ∈ cs.head?, Identifier.isPart c = false ∧ c ≠ '+' ∧ c ≠ '%'

theorem numberRest_stop (h : Separates cs) (last : Char) : (numberRest last cs).2 = cs := by
  cases cs with
  | nil => rfl
  | cons c cs =>
    obtain ⟨hpart, hplus, -⟩ := h c rfl
    have hne : ∀ d, Identifier.isPart d = true → c ≠ d := by
      rintro d hd rfl
      rw [hd] at hpart
      cases hpart
    have hdigit := isDigit_of_isPart hpart
    rw [numberRest]
    simp [hdigit, hplus, hne '.' (by decide), hne 'e' (by decide), hne 'E' (by decide),
      hne '-' (by decide)]

theorem digits?_eq {ds : List Char} (h : Numeral.digits? cs = some (ds, rest)) :
    cs = ds ++ rest ∧ ds ≠ [] ∧ ∀ c ∈ ds, c.isDigit := by
  unfold Numeral.digits? at h
  rw [List.span_eq_takeWhile_dropWhile] at h
  split at h
  · cases h
  · next hne =>
    obtain ⟨rfl, rfl⟩ := Prod.mk.inj (Option.some.inj h)
    exact ⟨List.takeWhile_append_dropWhile.symm, fun hnil => hne _ (by rw [hnil]),
      List.all_eq_true.mp List.all_takeWhile⟩

theorem numberRest_digits {ds : List Char} (hds : ∀ c ∈ ds, c.isDigit) (last : Char) :
    ∃ last', ∀ cs, (numberRest last (ds ++ cs)).2 = (numberRest last' cs).2 := by
  induction ds generalizing last with
  | nil => exact ⟨last, fun _ => rfl⟩
  | cons c ds ih =>
    rw [List.forall_mem_cons] at hds
    obtain ⟨last', hlast⟩ := ih hds.2 c
    refine ⟨last', fun cs => ?_⟩
    rw [List.cons_append, numberRest, if_pos (by simp [hds.1])]
    exact hlast cs

theorem numberRest_signed {k : Int} (h : Numeral.signedDigits? cs = some (k, rest))
    (hrest : Separates (rest ++ tail)) {last : Char} (hlast : last = 'e' ∨ last = 'E') :
    (numberRest last (cs ++ tail)).2 = rest ++ tail := by
  have hdigits : ∀ {cs ds : List Char} {last : Char}, Numeral.digits? cs = some (ds, rest) →
      (numberRest last (cs ++ tail)).2 = rest ++ tail := by
    intro cs ds last hds
    obtain ⟨rfl, -, hall⟩ := digits?_eq hds
    obtain ⟨last', hlast'⟩ := numberRest_digits hall last
    rw [List.append_assoc, hlast', numberRest_stop hrest]
  have hsign : ∀ {c : Char} (cs : List Char), c = '+' ∨ c = '-' →
      (numberRest last (c :: cs)).2 = (numberRest c cs).2 := by
    intro c cs hc
    have hlast' : (last == 'e' || last == 'E') = true := by simpa using hlast
    have hc' : (c == '+' || c == '-') = true := by simpa using hc
    rw [numberRest, hlast', hc']
    simp
  unfold Numeral.signedDigits? at h
  split at h
  all_goals
    obtain ⟨⟨ds, rest'⟩, hds, h⟩ := Option.map_eq_some_iff.mp h
    cases h
  · rw [List.cons_append, hsign _ (.inr rfl)]
    exact hdigits hds
  · rw [List.cons_append, hsign _ (.inl rfl)]
    exact hdigits hds
  · exact hdigits hds

theorem numberRest_exponent {k : Option Int} (h : Numeral.exponent? cs = some (k, rest))
    (hrest : Separates (rest ++ tail)) (last : Char) : (numberRest last (cs ++ tail)).2 = rest ++ tail := by
  unfold Numeral.exponent? at h
  split at h
  · obtain ⟨⟨k, rest'⟩, hk, h⟩ := Option.map_eq_some_iff.mp h
    cases h
    rw [List.cons_append, numberRest, if_pos (by simp)]
    exact numberRest_signed hk hrest (.inl rfl)
  · obtain ⟨⟨k, rest'⟩, hk, h⟩ := Option.map_eq_some_iff.mp h
    cases h
    rw [List.cons_append, numberRest, if_pos (by simp)]
    exact numberRest_signed hk hrest (.inr rfl)
  · cases h
    exact numberRest_stop hrest last

theorem numberRest_fraction {ds : Option (List Char)} (h : Numeral.fraction? cs = some (ds, rest))
    (tail : List Char) (last : Char) :
    ∃ last', (numberRest last (cs ++ tail)).2 = (numberRest last' (rest ++ tail)).2 := by
  unfold Numeral.fraction? at h
  split at h
  · obtain ⟨⟨ds, rest'⟩, hds, h⟩ := Option.map_eq_some_iff.mp h
    cases h
    obtain ⟨rfl, -, hall⟩ := digits?_eq hds
    obtain ⟨last', hlast⟩ := numberRest_digits hall '.'
    refine ⟨last', ?_⟩
    rw [List.cons_append, numberRest, if_pos (by simp), List.append_assoc]
    exact hlast _
  · cases h
    exact ⟨last, rfl⟩

theorem numberRest_numeral {k : Numeral} (h : Numeral.read? cs = some (k, rest))
    (hrest : Separates (rest ++ tail)) : ∃ x ds, cs = x :: ds ∧
      (x.isDigit ∨ x = '-' ∧ startsWithDigit (ds ++ tail)) ∧
      (numberRest x (ds ++ tail)).2 = rest ++ tail := by
  have hwhole : ∀ {cs ds us : List Char} {f : Option (List Char)} {e : Option Int},
      Numeral.whole? cs = some (ds, us) → ∀ {vs : List Char}, Numeral.fraction? us = some (f, vs) →
      Numeral.exponent? vs = some (e, rest) → ∃ x xs, cs = x :: xs ∧ x.isDigit ∧
        ∀ last, (numberRest last (x :: (xs ++ tail))).2 = rest ++ tail := by
    intro cs ds us f e hds vs hf he
    have hdigits : Numeral.digits? cs = some (ds, us) := by
      unfold Numeral.whole? at hds
      split at hds
      · cases hds
      · exact hds
    obtain ⟨rfl, hne, hall⟩ := digits?_eq hdigits
    obtain ⟨x, xs, rfl⟩ := List.exists_cons_of_ne_nil hne
    refine ⟨x, xs ++ us, rfl, hall x List.mem_cons_self, fun last => ?_⟩
    obtain ⟨last', hlast⟩ := numberRest_digits hall last
    obtain ⟨last'', hlast'⟩ := numberRest_fraction hf tail last'
    have hend := numberRest_exponent he hrest last''
    rw [List.append_assoc, ← List.cons_append, hlast, hlast', hend]
  simp only [Numeral.read?, bind, Option.bind_eq_some_iff] at h
  split at h
  all_goals
    obtain ⟨⟨ds, us⟩, hds, ⟨f, vs⟩, hf, ⟨e, ws⟩, he, h⟩ := h
    cases h
    obtain ⟨x, xs, rfl, hx, hend⟩ := hwhole hds hf he
  · refine ⟨'-', x :: xs, rfl, .inr ⟨rfl, hx⟩, ?_⟩
    exact hend '-'
  · refine ⟨x, xs, rfl, .inl hx, ?_⟩
    have hfirst := hend 'e'
    rw [numberRest, if_pos (by simp [hx])] at hfirst
    exact hfirst

/-! ## Single tokens -/

theorem skip_eq (cs : List Char) : cs = cs.takeWhile isBlank ++ skip cs :=
  List.takeWhile_append_dropWhile.symm

theorem isBlank_of_skipped (cs : List Char) : ∀ c ∈ cs.takeWhile isBlank, isBlank c :=
  List.all_eq_true.mp List.all_takeWhile

inductive IsSign : Char → Kind → Prop
  | comma : IsSign ',' .comma
  | colon : IsSign ':' .colon
  | leftBracket : IsSign '[' .leftBracket
  | rightBracket : IsSign ']' .rightBracket
  | leftBrace : IsSign '\x7b' .leftBrace
  | rightBrace : IsSign '\x7d' .rightBrace

variable {m : Markup} {b : Bool} {c d : Cursor} {x : Char} {kind : Kind}

theorem IsSign.passes (h : IsSign x kind) (cs : List Char) : blockOpener.Passes x cs :=
  Standard.block.passes (by cases h <;> rfl) (by cases h <;> decide) (by cases h <;> decide) cs

theorem IsSign.lexeme (h : IsSign x kind) (closing : List Char) (b : Bool) (cs : List Char) :
    Token.lexeme closing b x cs = ⟨kind, [x], cs⟩ := by
  cases h <;> cases cs <;> rfl

theorem IsSign.separates (h : IsSign x kind) (cs : List Char) : Separates (x :: cs) := by
  rintro y ⟨⟩
  cases h <;> decide

theorem cuts_sign (h : IsSign x kind) (hblanks : ∀ c ∈ blanks, isBlank c)
    (hc : c.rest = blanks ++ x :: cs) :
    ∃ t d, Cuts m (.tag blockOpener b) c [t] (.tag blockOpener kind.endsOperand) d ∧
      Found c blanks kind t d ∧ d.rest = cs :=
  Cuts.lexeme Standard.block.tight hblanks (h.passes cs) hc (h.lexeme _ b cs)

theorem cuts_string {text : String} (h : string? cs = some (text, rest))
    (hblanks : ∀ c ∈ blanks, isBlank c) (hc : c.rest = blanks ++ (cs ++ tail)) :
    ∃ t d, Cuts m (.tag blockOpener b) c [t] (.tag blockOpener true) d ∧
      Found c blanks .string t d ∧ d.rest = rest ++ tail := by
  obtain ⟨ds, rfl, hkind, hrest⟩ := lexeme_string h blockOpener.closing b tail
  have hpasses : blockOpener.Passes '"' (ds ++ tail) :=
    Standard.block.passes rfl (by decide) (by decide) _
  obtain ⟨t, d, hcuts, hfound, hd⟩ := Cuts.lexeme Standard.block.tight hblanks hpasses hc rfl
  rw [hkind] at hcuts hfound
  exact ⟨t, d, hcuts, hfound, hd.trans hrest⟩

theorem cuts_number {k : Numeral} (h : Numeral.read? cs = some (k, rest))
    (hrest : Separates (rest ++ tail)) (hb : b = true → cs.head? ≠ some '-')
    (hblanks : ∀ c ∈ blanks, isBlank c) (hc : c.rest = blanks ++ (cs ++ tail)) :
    ∃ t d, Cuts m (.tag blockOpener b) c [t] (.tag blockOpener true) d ∧
      Found c blanks .number t d ∧ d.rest = rest ++ tail := by
  obtain ⟨x, ds, rfl, hx, hnumber⟩ := numberRest_numeral h hrest
  have hne : ∀ y : Char, y.isDigit = false → y ≠ '-' → x ≠ y := by
    rintro y hy hminus rfl
    rcases hx with hx | ⟨hx, -⟩
    · rw [hx] at hy
      cases hy
    · exact hminus hx
  have hlexeme : lexeme blockOpener.closing b x (ds ++ tail) =
      .extend .number x (numberRest x (ds ++ tail)) := by
    rcases hx with hx | ⟨rfl, hdigit⟩
    · simp [lexeme, hne '"' (by decide) (by decide), hx]
    · have hb' : b = false := by simpa using hb
      simp [lexeme, hb', hdigit]
  have hpasses : blockOpener.Passes x (ds ++ tail) := by
    refine ⟨?_, ?_, ?_⟩
    · simp [isBlank, hne ' ' (by decide) (by decide), hne '\t' (by decide) (by decide),
        hne '\n' (by decide) (by decide), hne '\r' (by decide) (by decide)]
    · exact if_neg (hne '%' (by decide) (by decide)).symm
    · -- the sign of a numeral is not that of a mark, since a digit follows
      rintro rfl
      rcases hx with hx | ⟨-, hdigit⟩
      · cases hx
      · cases hnext : ds ++ tail with
        | nil => rfl
        | cons y ys =>
          rw [hnext] at hdigit
          refine if_neg ?_
          rintro rfl
          cases hdigit
  obtain ⟨t, d, hcuts, hfound, hd⟩ := Cuts.lexeme Standard.block.tight hblanks hpasses hc hlexeme
  exact ⟨t, d, hcuts, hfound, hd.trans hnumber⟩

theorem cuts_word (hx : Identifier.isStart x) (hcs : ∀ c ∈ cs, Identifier.isPart c)
    (hrest : Separates (rest ++ tail)) (hblanks : ∀ c ∈ blanks, isBlank c)
    (hc : c.rest = blanks ++ (x :: (cs ++ rest) ++ tail)) :
    ∃ t d, Cuts m (.tag blockOpener b) c [t] (.tag blockOpener true) d ∧
      Found c blanks .word t d ∧ t.text = String.ofList (x :: cs) ∧ d.rest = rest ++ tail := by
  have hrest' : ∀ c ∈ (rest ++ tail).head?,
      Identifier.isPart c = false ∧ blockOpener.closing.head? ≠ some c := by
    intro c hc
    obtain ⟨hpart, -, hmark⟩ := hrest c hc
    exact ⟨hpart, fun h => hmark (Option.some.inj h).symm⟩
  rw [List.cons_append, List.append_assoc] at hc
  exact Standard.block.word hblanks hx hcs hrest' hc

/-! ## Brackets -/

/-- The brackets among the tokens belong together, and no tag ends in between. -/
def Balanced (ts : List Token) : Prop :=
  ∀ (g : Grammar) (wanted : Kind) (depth : Nat) (more : List Token),
    g.skipBalanced wanted depth (ts ++ more) = g.skipBalanced wanted depth more

namespace Balanced

variable {t u : Token} {ts us : List Token}

theorem nil : Balanced [] := fun _ _ _ _ => rfl

theorem append (h : Balanced ts) (h' : Balanced us) : Balanced (ts ++ us) := by
  intro g wanted depth more
  rw [List.append_assoc, h, h']

theorem single (h : t.kind = .word ∨ t.kind = .number ∨ t.kind = .string ∨ t.kind = .comma ∨
    t.kind = .colon) : Balanced [t] := by
  intro g wanted depth more
  rw [List.singleton_append, Grammar.skipBalanced.eq_def]
  rcases h with h | h | h | h | h <;> simp only [h]

theorem enclosed (ht : t.kind = .leftBracket ∨ t.kind = .leftBrace) (h : Balanced ts)
    (hu : u.kind = .rightBracket ∨ u.kind = .rightBrace) : Balanced (t :: (ts ++ [u])) := by
  intro g wanted depth more
  have hopen : g.skipBalanced wanted depth (t :: (ts ++ [u] ++ more)) =
      g.skipBalanced wanted (depth + 1) (ts ++ [u] ++ more) := by
    rw [Grammar.skipBalanced.eq_def]
    rcases ht with ht | ht <;> simp only [ht]
  have hclose : g.skipBalanced wanted (depth + 1) (u :: more) = g.skipBalanced wanted depth more := by
    rw [Grammar.skipBalanced.eq_def]
    rcases hu with hu | hu <;> simp only [hu]
  rw [List.cons_append, hopen, List.append_assoc, h, List.singleton_append, hclose]

end Balanced

def UpTo (place : Nat) (ts : List Token) : Prop :=
  ∃ inner t, ts = inner ++ [t] ∧ Balanced inner ∧ (t.kind = .rightBracket ∨ t.kind = .rightBrace) ∧
    t.span.stop = place

theorem UpTo.prepend {place : Nat} {ts us : List Token} (h : Balanced ts) (h' : UpTo place us) :
    UpTo place (ts ++ us) := by
  obtain ⟨inner, t, rfl, hinner, ht, hplace⟩ := h'
  exact ⟨ts ++ inner, t, (List.append_assoc _ _ _).symm, h.append hinner, ht, hplace⟩

theorem UpTo.closing {t : Token} {ts : List Token} (h : Balanced ts) (ht : Found c blanks kind t d)
    (hkind : kind = .rightBracket ∨ kind = .rightBrace) : UpTo d.place (ts ++ [t]) :=
  ⟨ts, t, rfl, h, by rwa [ht.kind], by rw [ht.span]⟩

/-! ## Values -/

theorem separates_blank (hx : isBlank x) (cs : List Char) : Separates (x :: cs) := by
  rintro y ⟨⟩
  simp only [isBlank, Bool.or_eq_true, beq_iff_eq] at hx
  rcases hx with ((rfl | rfl) | rfl) | rfl <;> decide

theorem separates_skip (hx : IsSign x kind) (h : skip cs = x :: rest) (tail : List Char) :
    Separates (cs ++ tail) := by
  have hcs := skip_eq cs
  have hblanks := isBlank_of_skipped cs
  rw [hcs, h]
  cases hfront : cs.takeWhile isBlank with
  | nil => exact hx.separates _
  | cons y blanks =>
    rw [hfront] at hblanks
    exact separates_blank (hblanks y List.mem_cons_self) _

theorem cuts_skip (hx : IsSign x kind) (h : skip cs = x :: rest) (hc : c.rest = cs ++ tail) :
    ∃ t d, Cuts m (.tag blockOpener b) c [t] (.tag blockOpener kind.endsOperand) d ∧
      Found c (cs.takeWhile isBlank) kind t d ∧ d.rest = rest ++ tail := by
  rw [skip_eq cs, h, List.append_assoc, List.cons_append] at hc
  exact cuts_sign hx (isBlank_of_skipped cs) hc

/-- How a value is cut: into a word that stands for it, a number, a string, or what is between two
brackets. -/
inductive Written (v : Value) (c d : Cursor) (blanks : List Char) : List Token → Prop
  | word {t : Token} : Found c blanks .word t d → Grammar.wordOperand t = .ok (.literal v t.span) →
    Written v c d blanks [t]
  | plain {t : Token} {kind : Kind} : kind = .number ∨ kind = .string → Found c blanks kind t d →
    Written v c d blanks [t]
  | enclosed {t : Token} {ts : List Token} : t.kind = .leftBracket ∨ t.kind = .leftBrace →
    t.span.start = c.place + byteSize blanks → UpTo d.place ts → Written v c d blanks (t :: ts)

theorem Written.balanced {ts : List Token} (h : Written v c d blanks ts) : Balanced ts := by
  cases h with
  | word ht => exact .single (.inl ht.kind)
  | plain hkind ht =>
    refine .single ?_
    rw [ht.kind]
    rcases hkind with rfl | rfl <;> simp
  | enclosed ht _ hupto =>
    obtain ⟨inner, u, rfl, hinner, hu, -⟩ := hupto
    exact .enclosed ht hinner hu

/-- The tag is cut where the rules of JSON find the end of a value, or of what is inside of brackets. -/
structure CutAt (n : Nat) : Prop where
  value : ∀ {m : Markup} {b : Bool} {c : Cursor} {levels : Nat} {cs rest tail : List Char} {v : Value},
    value? n levels cs = some (v, rest) → Separates (rest ++ tail) →
    (b = true → (skip cs).head? ≠ some '-') → c.rest = cs ++ tail →
    ∃ ts d, Cuts m (.tag blockOpener b) c ts (.tag blockOpener true) d ∧ d.rest = rest ++ tail ∧
      Written v c d (cs.takeWhile isBlank) ts
  items : ∀ {m : Markup} {c : Cursor} {levels : Nat} {cs rest tail : List Char} {vs : List Value},
    items? n levels cs = some (vs, rest) → c.rest = cs ++ tail →
    ∃ ts d, Cuts m (.tag blockOpener false) c ts (.tag blockOpener true) d ∧ d.rest = rest ++ tail ∧
      UpTo d.place ts
  fields : ∀ {m : Markup} {c : Cursor} {levels : Nat} {found fs : Dict Value}
    {cs rest tail : List Char}, fields? n levels found cs = some (fs, rest) → c.rest = cs ++ tail →
    ∃ ts d, Cuts m (.tag blockOpener false) c ts (.tag blockOpener true) d ∧ d.rest = rest ++ tail ∧
      UpTo d.place ts

theorem cuts_items (ih : CutAt n) {vs : List Value} (h : items? (n + 1) levels cs = some (vs, rest))
    (hc : c.rest = cs ++ tail) :
    ∃ ts d, Cuts m (.tag blockOpener false) c ts (.tag blockOpener true) d ∧ d.rest = rest ++ tail ∧
      UpTo d.place ts := by
  simp only [items?, bind, Option.bind_eq_some_iff] at h
  obtain ⟨⟨v, us⟩, hv, h⟩ := h
  split at h
  · next us' hskip =>
    obtain ⟨⟨vs, ws⟩, hvs, h⟩ := Option.bind_eq_some_iff.mp h
    cases h
    obtain ⟨ts, d, hts, hd, hwritten⟩ := ih.value (m := m) (b := false) hv
      (separates_skip .comma hskip tail) nofun hc
    obtain ⟨t, d', ht, hfound, hd'⟩ := cuts_skip (m := m) (b := true) .comma hskip hd
    obtain ⟨us, e, hus, he, hupto⟩ := ih.items (m := m) hvs hd'
    exact ⟨ts ++ ([t] ++ us), e, hts.trans (ht.trans hus), he,
      .prepend hwritten.balanced (.prepend (.single (by simp [hfound.kind])) hupto)⟩
  · next us' hskip =>
    cases h
    obtain ⟨ts, d, hts, hd, hwritten⟩ := ih.value (m := m) (b := false) hv
      (separates_skip .rightBracket hskip tail) nofun hc
    obtain ⟨t, e, ht, hfound, he⟩ := cuts_skip (m := m) (b := true) .rightBracket hskip hd
    exact ⟨ts ++ [t], e, hts.trans ht, he, .closing hwritten.balanced hfound (.inl rfl)⟩
  · cases h

theorem cuts_fields (ih : CutAt n) {found fs : Dict Value}
    (h : fields? (n + 1) levels found cs = some (fs, rest)) (hc : c.rest = cs ++ tail) :
    ∃ ts d, Cuts m (.tag blockOpener false) c ts (.tag blockOpener true) d ∧ d.rest = rest ++ tail ∧
      UpTo d.place ts := by
  simp only [fields?, bind, Option.bind_eq_some_iff] at h
  obtain ⟨⟨key, us⟩, hkey, h⟩ := h
  rw [skip_eq cs, List.append_assoc] at hc
  obtain ⟨t, d, ht, hfound, hd⟩ := cuts_string (m := m) (b := false) hkey (isBlank_of_skipped cs) hc
  split at h
  · next us' hskip =>
    obtain ⟨⟨v, ws⟩, hv, h⟩ := Option.bind_eq_some_iff.mp h
    obtain ⟨t', d', ht', hfound', hd'⟩ := cuts_skip (m := m) (b := true) .colon hskip hd
    have hfront : Balanced ([t] ++ [t']) :=
      .append (.single (by simp [hfound.kind])) (.single (by simp [hfound'.kind]))
    dsimp only at h
    split at h
    · next ws' hskip' =>
      obtain ⟨ts, e, hts, he, hwritten⟩ := ih.value (m := m) (b := false) hv
        (separates_skip .comma hskip' tail) nofun hd'
      obtain ⟨u, e', hu, hcomma, he'⟩ := cuts_skip (m := m) (b := true) .comma hskip' he
      obtain ⟨us, f, hus, hf, hupto⟩ := ih.fields (m := m) h he'
      exact ⟨[t] ++ [t'] ++ (ts ++ ([u] ++ us)), f,
        (ht.trans ht').trans (hts.trans (hu.trans hus)), hf,
        .prepend hfront (.prepend hwritten.balanced (.prepend (.single (by simp [hcomma.kind])) hupto))⟩
    · next ws' hskip' =>
      cases h
      obtain ⟨ts, e, hts, he, hwritten⟩ := ih.value (m := m) (b := false) hv
        (separates_skip .rightBrace hskip' tail) nofun hd'
      obtain ⟨u, f, hu, hclose, hf⟩ := cuts_skip (m := m) (b := true) .rightBrace hskip' he
      exact ⟨[t] ++ [t'] ++ (ts ++ [u]), f, (ht.trans ht').trans (hts.trans hu), hf,
        .prepend hfront (.closing hwritten.balanced hclose (.inr rfl))⟩
    · cases h
  · cases h

theorem cuts_array (ih : CutAt n)
    (h : (match skip cs with
      | ']' :: rest => some (.array [], rest)
      | _ => (items? n levels cs).map fun (vs, rest) => (.array vs, rest)) = some (v, rest))
    (hc : c.rest = cs ++ tail) :
    ∃ ts d, Cuts m (.tag blockOpener false) c ts (.tag blockOpener true) d ∧ d.rest = rest ++ tail ∧
      UpTo d.place ts := by
  split at h
  · next us hskip =>
    cases h
    obtain ⟨t, d, ht, hfound, hd⟩ := cuts_skip (m := m) (b := false) .rightBracket hskip hc
    exact ⟨[t], d, ht, hd, .closing .nil hfound (.inl rfl)⟩
  · obtain ⟨⟨vs, us⟩, hvs, h⟩ := Option.map_eq_some_iff.mp h
    cases h
    exact ih.items hvs hc

theorem cuts_object (ih : CutAt n)
    (h : (match skip cs with
      | '\x7d' :: rest => some (.object [], rest)
      | _ => (fields? n levels [] cs).map fun (fs, rest) => (.object fs, rest)) = some (v, rest))
    (hc : c.rest = cs ++ tail) :
    ∃ ts d, Cuts m (.tag blockOpener false) c ts (.tag blockOpener true) d ∧ d.rest = rest ++ tail ∧
      UpTo d.place ts := by
  split at h
  · next us hskip =>
    cases h
    obtain ⟨t, d, ht, hfound, hd⟩ := cuts_skip (m := m) (b := false) .rightBrace hskip hc
    exact ⟨[t], d, ht, hd, .closing .nil hfound (.inr rfl)⟩
  · obtain ⟨⟨fs, us⟩, hfs, h⟩ := Option.map_eq_some_iff.mp h
    cases h
    exact ih.fields hfs hc

theorem value?_bracket (h : skip cs = '[' :: us) : value? (n + 1) levels cs =
    if levels = 0 then none
    else match skip us with
      | ']' :: rest => some (.array [], rest)
      | _ => (items? n (levels - 1) us).map fun (vs, rest) => (.array vs, rest) := by
  rw [value?, h]
  rfl

theorem value?_brace (h : skip cs = '\x7b' :: us) : value? (n + 1) levels cs =
    if levels = 0 then none
    else match skip us with
      | '\x7d' :: rest => some (.object [], rest)
      | _ => (fields? n (levels - 1) [] us).map fun (fs, rest) => (.object fs, rest) := by
  rw [value?, h]
  rfl

theorem cuts_brackets (ih : CutAt n) (h : value? (n + 1) levels cs = some (v, rest))
    (hx : IsSign x kind) (hkind : kind = .leftBracket ∨ kind = .leftBrace)
    (hfirst : skip cs = x :: us) (hc : c.rest = cs ++ tail) :
    ∃ t ts d, Cuts m (.tag blockOpener b) c (t :: ts) (.tag blockOpener true) d ∧
      d.rest = rest ++ tail ∧ t.kind = kind ∧
      t.span.start = c.place + byteSize (cs.takeWhile isBlank) ∧ UpTo d.place ts := by
  obtain ⟨t, d, ht, hfound, hd⟩ := cuts_skip (m := m) (b := b) hx hfirst hc
  have hstart : t.span.start = c.place + byteSize (cs.takeWhile isBlank) := by rw [hfound.span]
  rcases hkind with rfl | rfl
  · cases hx
    rw [value?_bracket hfirst] at h
    split at h
    · cases h
    · obtain ⟨ts, e, hts, he, hupto⟩ := cuts_array (m := m) ih h hd
      exact ⟨t, ts, e, ht.trans hts, he, hfound.kind, hstart, hupto⟩
  · cases hx
    rw [value?_brace hfirst] at h
    split at h
    · cases h
    · obtain ⟨ts, e, hts, he, hupto⟩ := cuts_object (m := m) ih h hd
      exact ⟨t, ts, e, ht.trans hts, he, hfound.kind, hstart, hupto⟩

theorem cuts_enclosed (ih : CutAt n) (h : value? (n + 1) levels cs = some (v, rest))
    (hx : IsSign x kind) (hkind : kind = .leftBracket ∨ kind = .leftBrace)
    (hfirst : skip cs = x :: us) (hc : c.rest = cs ++ tail) :
    ∃ ts d, Cuts m (.tag blockOpener b) c ts (.tag blockOpener true) d ∧ d.rest = rest ++ tail ∧
      Written v c d (cs.takeWhile isBlank) ts := by
  obtain ⟨t, ts, d, hcuts, hd, ht, hstart, hupto⟩ :=
    cuts_brackets (m := m) (b := b) ih h hx hkind hfirst hc
  exact ⟨t :: ts, d, hcuts, hd, .enclosed (by rwa [ht]) hstart hupto⟩

theorem cuts_value (ih : CutAt n) (h : value? (n + 1) levels cs = some (v, rest))
    (hrest : Separates (rest ++ tail)) (hb : b = true → (skip cs).head? ≠ some '-')
    (hc : c.rest = cs ++ tail) :
    ∃ ts d, Cuts m (.tag blockOpener b) c ts (.tag blockOpener true) d ∧ d.rest = rest ++ tail ∧
      Written v c d (cs.takeWhile isBlank) ts := by
  have hblanks := isBlank_of_skipped cs
  have hskip := hc
  rw [skip_eq cs, List.append_assoc] at hskip
  have hword : ∀ (x : Char) (xs : List Char) (k : Keyword), Identifier.isStart x →
      (∀ c ∈ xs, Identifier.isPart c) → Keyword.ofText? (String.ofList (x :: xs)) = some k →
      (∀ t : Token, Grammar.keyword? t = some k → Grammar.wordOperand t = .ok (.literal v t.span)) →
      skip cs = x :: (xs ++ rest) →
      ∃ ts d, Cuts m (.tag blockOpener b) c ts (.tag blockOpener true) d ∧ d.rest = rest ++ tail ∧
        Written v c d (cs.takeWhile isBlank) ts := by
    intro x xs k hx hxs hk hoperand hfirst
    rw [hfirst] at hskip
    obtain ⟨t, d, ht, hfound, htext, hd⟩ := cuts_word (m := m) (b := b) hx hxs hrest hblanks hskip
    refine ⟨[t], d, ht, hd, .word hfound (hoperand t ?_)⟩
    rw [Grammar.keyword?, if_pos hfound.kind, htext, hk]
  have h' := h
  rw [value?] at h'
  split at h'
  · next us hfirst =>
    cases h'
    exact hword 'n' ['u', 'l', 'l'] .nullWord (by decide) (List.all_eq_true.mp (by decide)) (by decide)
      (fun t ht => by rw [Grammar.wordOperand, ht]) hfirst
  · next us hfirst =>
    cases h'
    exact hword 't' ['r', 'u', 'e'] .trueWord (by decide) (List.all_eq_true.mp (by decide)) (by decide)
      (fun t ht => by rw [Grammar.wordOperand, ht]) hfirst
  · next us hfirst =>
    cases h'
    exact hword 'f' ['a', 'l', 's', 'e'] .falseWord (by decide) (List.all_eq_true.mp (by decide)) (by decide)
      (fun t ht => by rw [Grammar.wordOperand, ht]) hfirst
  · next us hfirst =>
    obtain ⟨⟨text, ws⟩, htext, h'⟩ := Option.map_eq_some_iff.mp h'
    cases h'
    rw [hfirst] at hskip
    obtain ⟨t, d, ht, hfound, hd⟩ := cuts_string (m := m) (b := b) htext hblanks hskip
    exact ⟨[t], d, ht, hd, .plain (.inr rfl) hfound⟩
  · next us hfirst => exact cuts_enclosed ih h .leftBracket (.inl rfl) hfirst hc
  · next us hfirst => exact cuts_enclosed ih h .leftBrace (.inr rfl) hfirst hc
  · simp only [number?, bind, Option.bind_eq_some_iff] at h'
    obtain ⟨⟨k, us⟩, hk, _, -, h'⟩ := h'
    cases h'
    obtain ⟨t, d, ht, hfound, hd⟩ := cuts_number (m := m) (b := b) hk hrest hb hblanks hskip
    exact ⟨[t], d, ht, hd, .plain (.inl rfl) hfound⟩

theorem cutAt : ∀ n, CutAt n
  | 0 => ⟨nofun, nofun, nofun⟩
  | n + 1 => ⟨cuts_value (cutAt n), cuts_items (cutAt n), cuts_fields (cutAt n)⟩

end Json

end Stencil

import Stencil.Proofs.Scanning.Cutting
/-!
# Lexemes in front of a blank

What a lexeme takes of some characters with a blank behind them does not depend on what follows the blank.
Only a string can go past the blank, and only a word looks for the mark that ends its tag.
-/

namespace Stencil

namespace Token

variable {cs ds blanks rest tail : List Char} {x : Char} {b : Bool}

/-! ## Rests -/

theorem stringRest_split (escaped : Bool) (cs : List Char) :
    (∃ taken rest, cs = taken ++ rest ∧ ∀ tail, stringRest escaped (cs ++ tail) = (taken, rest ++ tail)) ∨
    ∃ escaped', ∀ tail, (stringRest escaped (cs ++ tail)).2 = (stringRest escaped' tail).2 := by
  induction cs generalizing escaped with
  | nil => exact .inr ⟨escaped, fun _ => rfl⟩
  | cons c cs ih =>
    have hlonger : ∀ escaped', (∀ tail, stringRest escaped (c :: (cs ++ tail)) =
        (c :: (stringRest escaped' (cs ++ tail)).1, (stringRest escaped' (cs ++ tail)).2)) →
        (∃ taken rest, c :: cs = taken ++ rest ∧
          ∀ tail, stringRest escaped (c :: cs ++ tail) = (taken, rest ++ tail)) ∨
        ∃ escaped', ∀ tail, (stringRest escaped (c :: cs ++ tail)).2 = (stringRest escaped' tail).2 := by
      intro escaped' hstep
      rcases ih escaped' with ⟨taken, rest, rfl, h⟩ | ⟨escaped'', h⟩
      · refine .inl ⟨c :: taken, rest, rfl, fun tail => ?_⟩
        rw [List.cons_append, hstep, h]
      · refine .inr ⟨escaped'', fun tail => ?_⟩
        rw [List.cons_append, hstep]
        exact h tail
    cases escaped with
    | true => exact hlonger false fun _ => rfl
    | false =>
      by_cases hc : c = '"'
      · refine .inl ⟨[c], cs, rfl, fun tail => ?_⟩
        rw [List.cons_append, stringRest, if_pos hc]
      · refine hlonger (c == '\\') fun tail => ?_
        rw [stringRest, if_neg hc]

theorem numberRest_split (last : Char) (cs : List Char) : ∃ taken rest, cs = taken ++ rest ∧
    ∀ tail, numberRest last (cs ++ ' ' :: tail) = (taken, rest ++ ' ' :: tail) := by
  induction cs generalizing last with
  | nil => exact ⟨[], [], rfl, fun tail => by simp [numberRest]⟩
  | cons c cs ih =>
    obtain ⟨taken, rest, rfl, h⟩ := ih c
    by_cases hc : (c.isDigit || c == '.' || c == 'e' || c == 'E' ||
        ((c == '+' || c == '-') && (last == 'e' || last == 'E'))) = true
    · refine ⟨c :: taken, rest, rfl, fun tail => ?_⟩
      rw [List.cons_append, numberRest, if_pos hc, h]
    · refine ⟨[], c :: (taken ++ rest), rfl, fun tail => ?_⟩
      rw [List.cons_append, numberRest, if_neg hc]

theorem pairSign?_blank (c : Char) : pairSign? c ' ' = none := by
  unfold pairSign?
  split <;> first | rfl | simp_all

theorem signLexeme_split (x : Char) (cs : List Char) : ∃ kind taken rest, cs = taken ++ rest ∧
    ∀ tail, signLexeme x (cs ++ ' ' :: tail) = ⟨kind, x :: taken, rest ++ ' ' :: tail⟩ := by
  cases cs with
  | nil =>
    refine ⟨(sign? x).getD .unknown, [], [], rfl, fun tail => ?_⟩
    rw [List.nil_append, signLexeme, pairSign?_blank]
  | cons d cs =>
    cases hpair : pairSign? x d with
    | some kind => exact ⟨kind, [d], cs, rfl, fun tail => by rw [List.cons_append, signLexeme, hpair]⟩
    | none =>
      refine ⟨(sign? x).getD .unknown, [], d :: cs, rfl, fun tail => ?_⟩
      rw [List.cons_append, signLexeme, hpair]

/-! ## Words -/

inductive Marked : List Char → Prop
  | block (rest : List Char) : Marked ('%' :: '\x7d' :: rest)
  | trimmedBlock (rest : List Char) : Marked ('-' :: '%' :: '\x7d' :: rest)
  | trimmed (rest : List Char) : Marked ('-' :: '\x7d' :: '\x7d' :: rest)

theorem mark_of_dropMark? {d e : Char} (hd : d ≠ ' ') (he : e ≠ ' ')
    (h : (dropMark? [d, e] (cs ++ ' ' :: tail)).isSome) : ∃ ds, cs = d :: e :: ds := by
  obtain ⟨rest, hrest⟩ := Option.isSome_iff_exists.mp h
  have happend := dropMark?_eq_some hrest
  rcases cs with _ | ⟨c, _ | ⟨c', ds⟩⟩
  · exact absurd (List.cons.inj happend).1.symm hd
  · exact absurd (List.cons.inj (List.cons.inj happend).2).1.symm he
  · obtain ⟨hc, happend⟩ := List.cons.inj happend
    exact ⟨ds, by rw [hc, (List.cons.inj happend).1]⟩

theorem wordRest_end {closing : List Char} (hpart : Identifier.isPart x = false) (cs : List Char) :
    wordRest closing (x :: cs) = ([], x :: cs) := by
  rw [wordRest, hpart]
  simp

theorem wordRest_split (cs tail : List Char) : ∃ taken rest, cs = taken ++ rest ∧
    wordRest exprOpener.closing (cs ++ ' ' :: tail) = (taken, rest ++ ' ' :: tail) ∧
    (¬ Marked (rest ++ ' ' :: tail) →
      ∀ tail', wordRest blockOpener.closing (cs ++ ' ' :: tail') = (taken, rest ++ ' ' :: tail')) := by
  induction cs with
  | nil => exact ⟨[], [], rfl, wordRest_end (by decide) _, fun _ _ => wordRest_end (by decide) _⟩
  | cons c cs ih =>
    by_cases hcut : (c = '-' && (dropMark? exprOpener.closing (cs ++ ' ' :: tail)).isSome) = true
    · refine ⟨[], c :: cs, rfl, by rw [List.cons_append, wordRest, if_pos hcut], fun h => ?_⟩
      simp only [Bool.and_eq_true, decide_eq_true_eq] at hcut
      obtain ⟨rfl, hmark⟩ := hcut
      obtain ⟨ds, rfl⟩ := mark_of_dropMark? (by decide) (by decide) hmark
      exact absurd (.trimmed _) h
    by_cases hpart : Identifier.isPart c
    · obtain ⟨taken, rest, hcs, hexpr, hblock⟩ := ih
      refine ⟨c :: taken, rest, by rw [hcs]; rfl, ?_, fun h tail' => ?_⟩
      · rw [List.cons_append, wordRest, if_neg hcut, if_pos hpart, hexpr]
      · rw [List.cons_append, wordRest, if_neg, if_pos hpart, hblock h]
        -- a mark of a statement would stand behind the word in a tag of the other kind
        simp only [Bool.and_eq_true, decide_eq_true_eq, not_and]
        rintro rfl hmark
        obtain ⟨ds, rfl⟩ := mark_of_dropMark? (by decide) (by decide) hmark
        rw [List.cons_append, wordRest_end (by decide), Prod.mk.injEq] at hexpr
        rw [← hexpr.2] at h
        exact h (.block _)
    · have hpart' : Identifier.isPart c = false := Bool.eq_false_iff.mpr hpart
      exact ⟨[], c :: cs, rfl, wordRest_end hpart' _, fun _ _ => wordRest_end hpart' _⟩

/-! ## Lexemes -/

theorem startsWithDigit_blank (cs tail : List Char) :
    startsWithDigit (cs ++ ' ' :: tail) = startsWithDigit cs := by
  cases cs <;> rfl

/-- A lexeme that does not go past the blank is the same in a statement, whatever follows the blank, if
no mark stands behind it. What stands before it matters to a sign only. -/
theorem lexeme_split (b : Bool) (x : Char) (cs tail : List Char) :
    (∃ escaped, (lexeme exprOpener.closing b x (cs ++ ' ' :: tail)).rest =
      (stringRest escaped (' ' :: tail)).2) ∨
    ∃ kind taken rest, cs = taken ++ rest ∧
      lexeme exprOpener.closing b x (cs ++ ' ' :: tail) = ⟨kind, x :: taken, rest ++ ' ' :: tail⟩ ∧
      (¬ Marked (rest ++ ' ' :: tail) → ∀ b' tail', b' = b ∨ x ≠ '-' →
        lexeme blockOpener.closing b' x (cs ++ ' ' :: tail') =
          ⟨kind, x :: taken, rest ++ ' ' :: tail'⟩) := by
  by_cases hquote : x = '"'
  · rcases stringRest_split false cs with ⟨taken, rest, hcs, hsplit⟩ | ⟨escaped, hsplit⟩
    · refine .inr ⟨.string, taken, rest, hcs, ?_, fun _ b' tail' _ => ?_⟩
      · simp only [lexeme, if_pos hquote, hsplit, Lexeme.extend]
      · simp only [lexeme, if_pos hquote, hsplit, Lexeme.extend]
    · refine .inl ⟨escaped, ?_⟩
      simp only [lexeme, if_pos hquote, Lexeme.extend, hsplit]
  right
  by_cases hdigit : x.isDigit
  · obtain ⟨taken, rest, hcs, hsplit⟩ := numberRest_split x cs
    refine ⟨.number, taken, rest, hcs, ?_, fun _ b' tail' _ => ?_⟩
    · simp only [lexeme, if_neg hquote, if_pos hdigit, hsplit, Lexeme.extend]
    · simp only [lexeme, if_neg hquote, if_pos hdigit, hsplit, Lexeme.extend]
  by_cases hsigned : (x = '-' && !b && startsWithDigit cs) = true
  · obtain ⟨taken, rest, hcs, hsplit⟩ := numberRest_split x cs
    refine ⟨.number, taken, rest, hcs, ?_, fun _ b' tail' hb => ?_⟩
    · simp only [lexeme, if_neg hquote, if_neg hdigit, startsWithDigit_blank, if_pos hsigned, hsplit,
        Lexeme.extend]
    · have hx : x = '-' := by
        simp only [Bool.and_eq_true, decide_eq_true_eq] at hsigned
        exact hsigned.1.1
      obtain rfl : b' = b := hb.resolve_right (not_not_intro hx)
      simp only [lexeme, if_neg hquote, if_neg hdigit, startsWithDigit_blank, if_pos hsigned, hsplit,
        Lexeme.extend]
  have hsigned' : ∀ b', b' = b ∨ x ≠ '-' → ¬ (x = '-' && !b' && startsWithDigit cs) = true := by
    rintro b' (rfl | hx)
    · exact hsigned
    · simp [hx]
  by_cases hstart : Identifier.isStart x
  · obtain ⟨taken, rest, hcs, hexpr, hblock⟩ := wordRest_split cs tail
    refine ⟨.word, taken, rest, hcs, ?_, fun hmark b' tail' hb => ?_⟩
    · simp only [lexeme, if_neg hquote, if_neg hdigit, startsWithDigit_blank, if_neg hsigned,
        if_pos hstart, hexpr, Lexeme.extend]
    · simp only [lexeme, if_neg hquote, if_neg hdigit, startsWithDigit_blank, if_neg (hsigned' b' hb),
        if_pos hstart, hblock hmark, Lexeme.extend]
  · obtain ⟨kind, taken, rest, hcs, hsplit⟩ := signLexeme_split x cs
    refine ⟨kind, taken, rest, hcs, ?_, fun _ b' tail' hb => ?_⟩
    · simp only [lexeme, if_neg hquote, if_neg hdigit, startsWithDigit_blank, if_neg hsigned,
        if_neg hstart, hsplit]
    · simp only [lexeme, if_neg hquote, if_neg hdigit, startsWithDigit_blank, if_neg (hsigned' b' hb),
        if_neg hstart, hsplit]

/-! ## What stands ahead -/

inductive Ahead.Stands (o : Opener) : Ahead → List Char → Prop
  | nothing : Stands o .nothing []
  | mark {trim : Bool} {taken rest : List Char} : taken = o.closing ∨ taken = '-' :: o.closing →
    Stands o (.mark trim taken rest) (taken ++ rest)
  | lexeme {x : Char} {ds : List Char} : o.Passes x ds → Stands o (.lexeme x ds) (x :: ds)

theorem lookAhead_stands {o : Opener} (ho : o.kind ≠ .line) (cs : List Char) :
    ∃ blanks found rest, lookAhead o.kind o.closing cs = (blanks, found) ∧ cs = blanks ++ rest ∧
      (∀ c ∈ blanks, Json.isBlank c) ∧ found.Stands o rest := by
  induction cs with
  | nil => exact ⟨[], .nothing, [], rfl, rfl, nofun, .nothing⟩
  | cons c cs ih =>
    obtain ⟨blanks, found, rest, hfound, rfl, hblanks, hstands⟩ := ih
    have hblank : Json.isBlank c → ∃ blanks' found' rest', (c :: blanks, found) = (blanks', found') ∧
        c :: (blanks ++ rest) = blanks' ++ rest' ∧ (∀ c ∈ blanks', Json.isBlank c) ∧
        found'.Stands o rest' := fun hc =>
      ⟨c :: blanks, found, rest, rfl, rfl, List.forall_mem_cons.mpr ⟨hc, hblanks⟩, hstands⟩
    rw [lookAhead, hfound]
    split
    · next hc =>
      simp only [Bool.or_eq_true, decide_eq_true_eq] at hc
      refine hblank ?_
      rcases hc with (rfl | rfl) | rfl <;> rfl
    next hc =>
    split
    · next hmark =>
      rw [dropMark?_eq_some hmark]
      exact ⟨[], _, _, rfl, rfl, nofun, .mark (.inl rfl)⟩
    next hmark =>
    split
    · next htrim =>
      split at htrim
      · next hminus =>
        simp only [Bool.and_eq_true, decide_eq_true_eq] at hminus
        rw [dropMark?_eq_some htrim]
        exact ⟨[], _, _, rfl, rfl, nofun, .mark (.inr (by rw [hminus.1]))⟩
      · cases htrim
    next htrim =>
    split
    · next hline =>
      refine hblank ?_
      rw [hline]
      rfl
    · next hline =>
      refine ⟨[], _, _, rfl, rfl, nofun, .lexeme ⟨?_, hmark, ?_⟩⟩
      · simp only [Bool.or_eq_true, decide_eq_true_eq, not_or] at hc
        simp [Json.isBlank, hc.1.1, hc.1.2, hc.2, hline]
      · rintro rfl
        rwa [if_pos (by simp [ho])] at htrim

/-! ## The first token -/

variable {m : Markup} {o : Opener} {c d : Cursor} {t : Token} {ts : List Token}

theorem Found.text_eq {kind : Kind} {taken : List Char} (h : Found c blanks kind t d)
    (hc : c.rest = blanks ++ (taken ++ d.rest)) : t.text = String.ofList taken := by
  rw [List.append_cancel_right (List.append_cancel_left (hc.symm.trans h.text)), String.ofList_toList]

theorem Tiles.size {place stop : Nat} (h : Tiles place cs ts stop rest) :
    place + byteSize cs = stop + byteSize rest := by
  induction h with
  | nil => rfl
  | cons _ _ _ _ ih =>
    simp only [byteSize_append]
    omega

/-- The next token of a tag: its closing mark, or a lexeme behind blanks and what is left of the tag. -/
inductive First (m : Markup) (o : Opener) (b : Bool) (c : Cursor) (t : Token) (ts : List Token) : Prop
  | closing {blanks taken rest : List Char} : c.rest = blanks ++ (taken ++ rest) →
    (∀ y ∈ blanks, Json.isBlank y) → taken = o.closing ∨ taken = '-' :: o.closing →
    t.kind = .closing o.kind → t.span.stop = c.place + byteSize (blanks ++ taken) → First m o b c t ts
  | lexeme {blanks cs : List Char} {x : Char} {found : Lexeme} {d : Cursor} :
    c.rest = blanks ++ x :: cs → (∀ y ∈ blanks, Json.isBlank y) → o.Passes x cs →
    Token.lexeme o.closing b x cs = found → Cuts m (.tag o b) c [t] (.tag o found.kind.endsOperand) d →
    Found c blanks found.kind t d → d.rest = found.rest →
    ts = remaining m (.tag o found.kind.endsOperand) d → First m o b c t ts

theorem Standard.first (ho : Standard o) (hm : o ∈ m.openers)
    (h : remaining m (.tag o b) c = t :: ts) : First m o b c t ts := by
  have hline : o.kind ≠ .line := by cases ho <;> decide
  obtain ⟨blanks, ahead, rest, hahead, hrest, hblanks, hstands⟩ := lookAhead_stands hline c.rest
  cases hstands with
  | nothing =>
    have hstep : step m (.tag o b) c = ⟨[], none⟩ := by
      rw [step, if_neg ho.tight.1, tagStep, hahead]
    rw [remaining, steps, hstep] at h
    cases h
  | @mark trim taken rest htaken =>
    have hstep : step m (.tag o b) c =
        ⟨[(c.past blanks (taken ++ rest)).token (.closing o.kind) taken],
          some (.text (trimAfter m o.kind trim), (c.past blanks (taken ++ rest)).past taken rest)⟩ := by
      rw [step, if_neg ho.tight.1, tagStep, hahead]
    rw [remaining, steps, hstep] at h
    obtain ⟨rfl, -⟩ := List.cons.inj h
    refine .closing hrest hblanks htaken rfl ?_
    simp only [Cursor.token, Cursor.past, byteSize_append, Nat.add_assoc]
  | @lexeme x cs hpasses =>
    obtain ⟨u, d, hcuts, hfound, hd⟩ := Cuts.lexeme (m := m) (b := b) ho.tight hblanks hpasses hrest rfl
    have hremaining := (hcuts.remaining_eq hm).2
    rw [h] at hremaining
    obtain ⟨rfl, hts⟩ := List.cons.inj hremaining
    exact .lexeme hrest hblanks hpasses rfl hcuts hfound hd hts

end Token

end Stencil

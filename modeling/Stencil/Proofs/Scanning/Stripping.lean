import Stencil.Proofs.Placement.Cover
/-!
# Blanks in front of a tag

A tag that asks for it takes away the last line of the text in front of it, if this is blank. The text
begins behind the last tag, so the line does as well, and its blanks are taken away although a tag stands
in front of them.
-/

namespace Stencil

namespace Token

variable {m : Markup} {source : List Char}

/-! ## What a tag takes away -/

theorem Trim.split_ends {trim : Trim} {cs trimmed rest : List Char} (h : trim.split cs = (trimmed, rest)) :
    EndsLine trimmed ∨ ∀ c ∈ rest.head?, Blank.isAscii c = false := by
  cases trim with
  | nothing =>
    cases h
    exact .inl (.inl rfl)
  | blanks =>
    rw [Trim.split, List.span_eq_takeWhile_dropWhile] at h
    obtain ⟨-, rfl⟩ := Prod.mk.inj h
    refine .inr fun c hc => ?_
    have hhead := List.head?_dropWhile_not Blank.isAscii cs
    rw [Option.mem_def.mp hc] at hhead
    exact hhead
  | line =>
    rw [Trim.split] at h
    split at h
    · obtain ⟨rfl, -⟩ := Prod.mk.inj h
      exact .inl (.inr (by simp))
    · obtain ⟨rfl, -⟩ := Prod.mk.inj h
      exact .inl (.inr (by simp))
    · obtain ⟨rfl, -⟩ := Prod.mk.inj h
      exact .inl (.inl rfl)

/-! ## The text in front of a tag -/

/-- How the last of some tokens wants the text behind it trimmed, and where it ends. A closing mark with
a `-` in front of it takes all blanks away. -/
inductive LastTag (m : Markup) : List Token → Trim → Nat → Prop
  | none : LastTag m [] .nothing 0
  | tag {ts : List Token} {u : Token} {o : Opener} {front : List Char} : o ∈ m.openers →
    u.kind = .closing o.kind → u.text.toList = front ++ o.closing →
    LastTag m (ts ++ [u]) (trimAfter m o.kind (front.getLast? == some '-')) u.span.stop

/-- The source up to the place of a token that opens a tag, with the tokens in front of it. -/
structure Front (m : Markup) (source : List Char) (before : List Token) (t : Token) where
  opener : Opener
  sign : List Char
  /-- The source up to the end of the last tag. -/
  seen : List Char
  /-- What the last tag takes away behind it. -/
  trimmed : List Char
  kept : List Char
  /-- What this tag takes away in front of it. -/
  stripped : List Char
  after : List Char
  tags : List Token
  trim : Trim
  opener_mem : opener ∈ m.openers
  kind_eq : t.kind = .opening opener.kind
  text_eq : t.text.toList = opener.mark ++ sign
  start_eq : t.span.start = byteSize (seen ++ (trimmed ++ (kept ++ stripped)))
  source_eq : source = seen ++ (trimmed ++ (kept ++ (stripped ++ (t.text.toList ++ after))))
  before_eq : before = tags ++ textAt (byteSize (seen ++ trimmed)) kept
  last : LastTag m tags trim (byteSize seen)
  split_eq : trim.split (trimmed ++ (kept ++ (stripped ++ (t.text.toList ++ after)))) =
    (trimmed, kept ++ (stripped ++ (t.text.toList ++ after)))

/-! ## One step -/

structure Behind (m : Markup) (source : List Char) (ts : List Token) (mode : Mode) (k : Cursor) :
    Prop where
  place : k.At source
  ready : mode.Ready m
  last : ∀ trim, mode = .text trim → LastTag m ts trim k.place

theorem lookAhead_front {tag : TagKind} {closing cs taken rest : List Char} {trim : Bool}
    (h : (lookAhead tag closing cs).2 = .mark trim taken rest) :
    ∃ front, taken = front ++ closing ∧ trim = (front.getLast? == some '-') := by
  induction cs with
  | nil => cases h
  | cons c cs ih =>
    rw [lookAhead] at h
    split at h
    · exact ih h
    split at h
    · cases h
      exact ⟨[], rfl, rfl⟩
    split at h
    · next rest hm =>
      cases h
      split at hm
      · next hc =>
        have hminus : c = '-' := by simp at hc; exact hc.1
        exact ⟨[c], rfl, by rw [hminus]; rfl⟩
      · cases hm
    split at h
    · exact ih h
    · cases h

theorem step_leaves {o : Opener} {afterOperand : Bool} {k d : Cursor} {trim : Trim}
    (h : (step m (.tag o afterOperand) k).next = some (.text trim, d)) :
    ∃ u front, (step m (.tag o afterOperand) k).tokens = [u] ∧ u.kind = .closing o.kind ∧
      u.text.toList = front ++ o.closing ∧ u.span.stop = d.place ∧
      trim = trimAfter m o.kind (front.getLast? == some '-') := by
  rw [step] at h ⊢
  split at h
  · next hkind =>
    rw [if_pos hkind]
    unfold commentStep at h ⊢
    split at h
    · cases h
    · next body rest hsplit =>
      cases h
      exact ⟨_, body, rfl, congrArg Kind.closing hkind.symm, String.toList_ofList, rfl, by rw [hkind]⟩
  · next hkind =>
    rw [if_neg hkind]
    unfold tagStep at h ⊢
    have hfront := @lookAhead_front o.kind o.closing k.rest
    generalize lookAhead o.kind o.closing k.rest = found at h hfront ⊢
    obtain ⟨blanks, ahead⟩ := found
    cases ahead with
    | nothing => cases h
    | mark trims taken rest =>
      obtain ⟨front, rfl, rfl⟩ := hfront rfl
      cases h
      exact ⟨_, front, rfl, rfl, String.toList_ofList, rfl, rfl⟩
    | lexeme c cs => cases h

theorem textStep_enters {trim : Trim} {k d : Cursor} {mode : Mode}
    (h : (textStep m trim k).next = some (mode, d)) : ∃ o, mode = .tag o false := by
  have hcases := textStep_cases m trim k
  generalize textStep m trim k = s at h hcases
  cases hcases with
  | nothing => cases h
  | text => cases h
  | opening =>
    cases h
    exact ⟨_, rfl⟩

theorem Behind.step {ts : List Token} {mode mode' : Mode} {k d : Cursor} (h : Behind m source ts mode k)
    (hnext : (step m mode k).next = some (mode', d)) :
    Behind m source (ts ++ (Token.step m mode k).tokens) mode' d := by
  have hcovers := step_covers h.ready k
  unfold Step.Covers at hcovers
  rw [hnext] at hcovers
  refine ⟨(step_placed m mode h.place).next mode' d hnext, hcovers.2.2.1, ?_⟩
  rintro trim rfl
  cases mode with
  | text trim' =>
    obtain ⟨o, ho⟩ := textStep_enters hnext
    cases ho
  | tag o afterOperand =>
    obtain ⟨u, front, htokens, hkind, htext, hstop, rfl⟩ := step_leaves hnext
    rw [htokens, ← hstop]
    exact .tag h.ready hkind htext

theorem step_opens {o : Opener} {afterOperand : Bool} {k : Cursor} {t : Token} {kind : TagKind}
    (ht : t ∈ (step m (.tag o afterOperand) k).tokens) : t.kind ≠ .opening kind := by
  rw [step] at ht
  split at ht
  · unfold commentStep at ht
    split at ht
    · cases ht
    · rw [List.mem_singleton.mp ht]
      rintro ⟨⟩
  · unfold tagStep at ht
    generalize lookAhead o.kind o.closing k.rest = found at ht
    obtain ⟨blanks, ahead⟩ := found
    cases ahead with
    | nothing => cases ht
    | mark trims taken rest =>
      rw [List.mem_singleton.mp ht]
      rintro ⟨⟩
    | lexeme c cs =>
      rw [List.mem_singleton.mp ht]
      exact Kind.ne_of_isInner (lexeme_taken_ne o.closing afterOperand c cs).2 rfl

theorem concat_eq_append_cons {α : Type} {as before behind : List α} {a u : α} (ha : a ∉ as)
    (h : as ++ [u] = before ++ a :: behind) : before = as ∧ a = u := by
  rcases List.append_eq_append_iff.mp h with ⟨x, rfl, hx⟩ | ⟨x, rfl, hx⟩
  · cases x with
    | nil => exact ⟨List.append_nil as, (List.cons.inj hx).1.symm⟩
    | cons y ys => simp at hx
  · cases x with
    | nil => exact ⟨(List.append_nil before).symm, (List.cons.inj hx).1⟩
    | cons y ys =>
      rw [(List.cons.inj hx).1] at ha
      exact absurd (List.mem_append_right before List.mem_cons_self) ha

/-- The tag takes away what it has to in front of it, and nothing else. -/
def Front.Strips {before : List Token} {t : Token} (f : Front m source before t) : Prop :=
  Stripped m f.opener.kind f.sign f.kept f.stripped

theorem textStep_front {ts before behind : List Token} {trim : Trim} {k : Cursor} {t : Token}
    {kind : TagKind} (h : Behind m source ts (.text trim) k)
    (htokens : (textStep m trim k).tokens = before ++ t :: behind) (hkind : t.kind = .opening kind) :
    ∃ f : Front m source (ts ++ before) t, f.Strips := by
  have hlast := h.last trim rfl
  obtain ⟨seen, hsource, hplace⟩ := h.place
  have happend := trim.split_append k.rest
  have hcases := textStep_cases m trim k
  generalize textStep m trim k = s at htokens hcases
  cases hcases with
  | nothing => exact absurd htokens (by simp)
  | text =>
    obtain ⟨-, rfl⟩ := concat_eq_append_cons List.not_mem_nil htokens
    cases hkind
  | @opening o trimmed kept stripped sign after hmem hsplit hstrips =>
    have hnot : t ∉ textAt (k.place + byteSize trimmed) kept := by
      intro ht
      rw [mem_textAt ht] at hkind
      cases hkind
    obtain ⟨rfl, rfl⟩ := concat_eq_append_cons hnot htokens
    rw [hsplit] at happend
    rw [← happend] at hsplit hsource
    have htext : (o.mark ++ sign : List Char) = (String.ofList (o.mark ++ sign)).toList :=
      String.toList_ofList.symm
    refine ⟨⟨o, sign, seen, trimmed, kept, stripped, after, ts, trim, hmem, rfl, htext.symm, ?_, ?_, ?_,
      ?_, ?_⟩, hstrips⟩
    · simp [Cursor.token, Cursor.past, hplace, Nat.add_assoc]
    · rw [Cursor.token, ← htext]
      exact hsource
    · rw [byteSize_append, hplace]
    · rw [hplace]
      exact hlast
    · rw [Cursor.token, ← htext]
      exact hsplit

/-! ## All steps -/

theorem steps_front {n : Nat} {ts before behind : List Token} {mode : Mode} {k : Cursor} {t : Token}
    {kind : TagKind} (h : Behind m source ts mode k)
    (htokens : steps m n mode k = before ++ t :: behind) (hkind : t.kind = .opening kind) :
    ∃ f : Front m source (ts ++ before) t, f.Strips := by
  induction n generalizing ts before mode k with
  | zero => exact absurd htokens (by simp [steps])
  | succ n ih =>
    -- the token is one of this step, or of the run behind it
    have hstep : ∀ behind, (step m mode k).tokens = before ++ t :: behind →
        ∃ f : Front m source (ts ++ before) t, f.Strips := by
      intro behind htokens
      cases mode with
      | text trim => exact textStep_front h htokens hkind
      | tag o afterOperand =>
        have ht : t ∈ (step m (.tag o afterOperand) k).tokens := by simp [htokens]
        exact absurd hkind (step_opens ht)
    rw [steps] at htokens
    split at htokens
    · exact hstep behind htokens
    · next mode' d hnext =>
      rcases List.append_eq_append_iff.mp htokens with ⟨x, rfl, hx⟩ | ⟨x, hfound, hx⟩
      · rw [← List.append_assoc]
        exact ih (h.step hnext) hx
      · cases x with
        | nil =>
          rw [List.append_nil] at hfound
          have hx' : steps m n mode' d = [] ++ t :: behind := hx.symm
          have hfront := ih (h.step hnext) hx'
          rwa [hfound, List.append_nil] at hfront
        | cons u us =>
          obtain ⟨rfl, -⟩ := List.cons.inj hx
          exact hstep us hfound

theorem Stripped.endsLine {kind : TagKind} {sign kept stripped : List Char}
    (h : Stripped m kind sign kept stripped) (hne : stripped ≠ []) : EndsLine kept := by
  unfold Stripped at h
  split at h
  · obtain ⟨front, hfront, hends⟩ := append_lastLine (kept ++ stripped)
    rw [← h] at hfront
    rw [List.append_cancel_right hfront]
    exact hends
  · exact absurd h hne

namespace Front

variable {before : List Token} {t : Token} {f : Front m source before t}

theorem Strips.place (h : f.Strips) (hne : f.stripped ≠ []) :
    EndsLine (f.seen ++ (f.trimmed ++ f.kept)) ∨ f.seen ≠ [] ∧ f.trimmed = [] ∧ f.kept = [] := by
  rcases Stripped.endsLine h hne with hkept | hkept
  · rw [hkept, List.append_nil]
    have hsplit := f.split_eq
    rw [hkept, List.nil_append] at hsplit
    rcases Trim.split_ends hsplit with (htrimmed | htrimmed) | hhead
    · rw [htrimmed, List.append_nil]
      by_cases hseen : f.seen = []
      · exact .inl (.inl hseen)
      · exact .inr ⟨hseen, rfl, rfl⟩
    · exact .inl (.inr (by rw [List.getLast?_append, htrimmed, Option.some_or]))
    · -- then the last tag has left no blank to take away
      obtain ⟨c, cs, hc⟩ := List.exists_cons_of_ne_nil hne
      have hinline := Stripped.blank h c (by rw [hc]; exact List.mem_cons_self)
      have hascii := hhead c (by rw [hc]; rfl)
      rw [Blank.isAscii_of_isInline hinline] at hascii
      cases hascii
  · exact .inl (.inr (by rw [List.getLast?_append, List.getLast?_append, hkept, Option.some_or,
      Option.some_or]))

end Front

/-- A tag takes away the last line of the text in front of it if this is blank and the tag asks for it,
and nothing else. All that stands on the line in front of the tag is then blank, or the last tag ends
right in front of the blanks that are taken away. -/
theorem scan_strips (m : Markup) (source : String) {before behind : List Token} {t : Token}
    {kind : TagKind} (hscan : scan m source = before ++ t :: behind) (hkind : t.kind = .opening kind) :
    ∃ f : Front m source.toList before t, f.Strips ∧
      (f.stripped ≠ [] →
        (∀ c ∈ lastLine (f.seen ++ (f.trimmed ++ (f.kept ++ f.stripped))), c = ' ' ∨ c = '\t') ∨
        f.seen ≠ [] ∧ f.trimmed = [] ∧ f.kept = []) := by
  have hstart : Behind m source.toList [] (.text .nothing) (.start source.toList) :=
    ⟨Cursor.start_at _, trivial, fun trim h => by cases h; exact .none⟩
  obtain ⟨f, hf⟩ := steps_front hstart hscan hkind
  refine ⟨f, hf, fun hne => (hf.place hne).imp_left fun hends => ?_⟩
  have hblank := Stripped.blank hf
  have hline : '\n' ∉ f.stripped := fun h => absurd (hblank _ h) (by decide)
  rw [← List.append_assoc f.trimmed, ← List.append_assoc, lastLine_of_endsLine hends hline]
  intro c hc
  simpa [Blank.isInline] using hblank c hc

theorem scan_strips_indented :
    scan .standard "x\n  \x7b\x7b-a\x7d\x7d" =
      [⟨.text, "x\n", ⟨0, 2⟩⟩] ++ ⟨.opening .expr, "\x7b\x7b-", ⟨4, 7⟩⟩ ::
        [⟨.word, "a", ⟨7, 8⟩⟩, ⟨.closing .expr, "\x7d\x7d", ⟨8, 10⟩⟩] ∧
    ∃ f : Front .standard "x\n  \x7b\x7b-a\x7d\x7d".toList [⟨.text, "x\n", ⟨0, 2⟩⟩]
      ⟨.opening .expr, "\x7b\x7b-", ⟨4, 7⟩⟩, f.Strips ∧
      (f.stripped ≠ [] →
        (∀ c ∈ lastLine (f.seen ++ (f.trimmed ++ (f.kept ++ f.stripped))), c = ' ' ∨ c = '\t') ∨
        f.seen ≠ [] ∧ f.trimmed = [] ∧ f.kept = []) :=
  ⟨rfl, scan_strips .standard "x\n  \x7b\x7b-a\x7d\x7d" rfl rfl⟩

/-- Behind another tag the blank is taken away, though the line does not begin there. -/
theorem stripped_behind_tag :
    scan .standard "\x7b\x7b1\x7d\x7d \x7b\x7b-2\x7d\x7d" =
      [⟨.opening .expr, "\x7b\x7b", ⟨0, 2⟩⟩, ⟨.number, "1", ⟨2, 3⟩⟩, ⟨.closing .expr, "\x7d\x7d", ⟨3, 5⟩⟩,
        ⟨.opening .expr, "\x7b\x7b-", ⟨6, 9⟩⟩, ⟨.number, "2", ⟨9, 10⟩⟩,
        ⟨.closing .expr, "\x7d\x7d", ⟨10, 12⟩⟩] ∧
    scan .standard "\x7b\x7b1\x7d\x7d \x7b\x7b2\x7d\x7d" =
      [⟨.opening .expr, "\x7b\x7b", ⟨0, 2⟩⟩, ⟨.number, "1", ⟨2, 3⟩⟩, ⟨.closing .expr, "\x7d\x7d", ⟨3, 5⟩⟩,
        ⟨.text, " ", ⟨5, 6⟩⟩, ⟨.opening .expr, "\x7b\x7b", ⟨6, 8⟩⟩, ⟨.number, "2", ⟨8, 9⟩⟩,
        ⟨.closing .expr, "\x7d\x7d", ⟨9, 11⟩⟩] ∧
    ¬ ∀ c ∈ lastLine "\x7b\x7b1\x7d\x7d ".toList, c = ' ' ∨ c = '\t' :=
  ⟨rfl, rfl, fun h => absurd (h '1' (by decide)) (by decide)⟩

end Token

end Stencil

import Mathlib.Data.List.TakeDrop
import Stencil.Proofs.Text.Line
import Stencil.Proofs.Text.Span
import Stencil.Token.Scan
/-!
# Tokens stand where they say

Whatever the source, the span of every token covers its text. The invariant of the scan is that the
cursor stands in front of the rest of the source.
-/

namespace Stencil

/-! ## Marks -/

theorem dropMark?_eq_some {mark cs rest : List Char} (h : dropMark? mark cs = some rest) :
    cs = mark ++ rest := by
  induction mark generalizing cs with
  | nil =>
    cases h
    rfl
  | cons m mark ih =>
    cases cs with
    | nil => cases h
    | cons c cs =>
      rw [dropMark?] at h
      split at h
      · next hm => rw [ih h, hm, List.cons_append]
      · cases h

theorem Opening.find?_eq_some {openers : List Opener} {lineStart : Bool} {cs : List Char}
    {f : Opening} (h : find? openers lineStart cs = some f) :
    cs = f.before ++ (f.opener.mark ++ f.after) := by
  induction cs generalizing lineStart f with
  | nil => cases h
  | cons c cs ih =>
    rw [find?] at h
    split at h
    · next o after ho =>
      cases h
      obtain ⟨o', _, ho⟩ := List.exists_of_findSome?_eq_some ho
      obtain ⟨after', ha, he⟩ := Option.map_eq_some_iff.mp ho
      cases he
      unfold Opener.at? at ha
      split at ha
      · cases ha
      · have hd := dropMark?_eq_some ha
        exact hd
    · obtain ⟨g, hg, rfl⟩ := Option.map_eq_some_iff.mp h
      rw [ih hg]
      rfl

theorem Opening.find?_mem {openers : List Opener} {lineStart : Bool} {cs : List Char} {f : Opening}
    (h : find? openers lineStart cs = some f) : f.opener ∈ openers := by
  induction cs generalizing lineStart f with
  | nil => cases h
  | cons c cs ih =>
    rw [find?] at h
    split at h
    · next o after ho =>
      cases h
      obtain ⟨o', hmem, ho⟩ := List.exists_of_findSome?_eq_some ho
      obtain ⟨after', -, he⟩ := Option.map_eq_some_iff.mp ho
      cases he
      exact hmem
    · obtain ⟨g, hg, rfl⟩ := Option.map_eq_some_iff.mp h
      have hmem := ih hg
      exact hmem

theorem splitAtMark?_eq_some {mark cs before after : List Char}
    (h : splitAtMark? mark cs = some (before, after)) : cs = before ++ (mark ++ after) := by
  induction cs generalizing before with
  | nil => cases h
  | cons c cs ih =>
    rw [splitAtMark?] at h
    split at h
    · next rest hm =>
      cases h
      have hd := dropMark?_eq_some hm
      exact hd
    · obtain ⟨⟨b, a⟩, hg, he⟩ := Option.map_eq_some_iff.mp h
      cases he
      rw [ih hg]
      rfl

namespace Token

/-! ## Pieces of text -/

theorem Trim.split_append (trim : Trim) (cs : List Char) :
    (trim.split cs).1 ++ (trim.split cs).2 = cs := by
  cases trim with
  | nothing => rfl
  | blanks => simp [Trim.split, List.span_eq_takeWhile_dropWhile]
  | line =>
    have hspan : (cs.span Blank.isInline).1 ++ (cs.span Blank.isInline).2 = cs := by
      simp [List.span_eq_takeWhile_dropWhile]
    rw [Trim.split]
    split
    · rename_i heq
      rw [heq] at hspan
      simpa using hspan
    · rename_i heq
      rw [heq] at hspan
      simpa using hspan
    · rfl

theorem stripLastLine_eq (cs : List Char) :
    cs = stripLastLine cs ++ if (lastLine cs).all Blank.isInline then lastLine cs else [] := by
  obtain ⟨dropped, hcs, hdropped⟩ := Blank.dropEnd_append Blank.isInline cs
  have hline : '\n' ∉ dropped := fun h => absurd (hdropped _ h) (by decide)
  have hall : dropped.all Blank.isInline := List.all_eq_true.mpr hdropped
  have hends : EndsLine (Blank.dropEnd Blank.isInline cs) →
      cs = Blank.dropEnd Blank.isInline cs ++
        if (lastLine cs).all Blank.isInline then lastLine cs else [] := by
    intro h
    have hlast := lastLine_of_endsLine h hline
    rw [← hcs] at hlast
    rw [hlast, if_pos hall]
    exact hcs
  unfold stripLastLine
  dsimp only
  split
  · next hnone => exact hends (.inl (List.getLast?_eq_none_iff.mp hnone))
  · next c hc =>
    split
    · next hnewline =>
      rw [hnewline] at hc
      exact hends (.inr hc)
    · next hnewline =>
      have hlast := lastLine_append (a := Blank.dropEnd Blank.isInline cs) hline
      obtain ⟨front, hfront⟩ := List.getLast?_eq_some_iff.mp hc
      have hc' : '\n' ∉ [c] := by simpa using Ne.symm hnewline
      rw [← hcs, hfront, lastLine_append hc'] at hlast
      rw [hlast]
      simp [Blank.getLast?_dropEnd hc]

theorem openingSign_append (m : Markup) (kind : TagKind) (after : List Char) :
    (openingSign m kind after).1 ++ after.drop (openingSign m kind after).1.length = after := by
  unfold openingSign
  dsimp only
  split
  · split <;> rfl
  · split <;> rfl
  · rfl

/-! ## What a tag takes away -/

/-- Whether a tag with a sign behind its opening mark takes away the blanks in front of it. -/
def strips (m : Markup) (kind : TagKind) (sign : List Char) : Bool :=
  sign = ['-'] || (sign = [] && (kind = .block || kind = .comment) && m.stripBlocks)

theorem openingSign_strips (m : Markup) (kind : TagKind) (after : List Char) :
    (openingSign m kind after).2 = strips m kind (openingSign m kind after).1 := by
  unfold openingSign strips
  dsimp only
  split
  · split
    · next hline => simp [hline]
    · simp
  · split
    · simp
    · next hblock => simp [hblock]
  · simp

/-- What a tag takes away is the last line of the text in front of it, if this is blank. -/
def Stripped (m : Markup) (kind : TagKind) (sign kept stripped : List Char) : Prop :=
  stripped = if strips m kind sign && (lastLine (kept ++ stripped)).all Blank.isInline
    then lastLine (kept ++ stripped) else []

theorem Stripped.blank {m : Markup} {kind : TagKind} {sign kept stripped : List Char}
    (h : Stripped m kind sign kept stripped) : ∀ c ∈ stripped, Blank.isInline c := by
  unfold Stripped at h
  split at h
  · next hline =>
    rw [← h] at hline
    exact List.all_eq_true.mp (Bool.and_eq_true_iff.mp hline).2
  · rw [h]
    exact fun _ hc => absurd hc List.not_mem_nil

theorem append_stripped (asks : Bool) (cs : List Char) :
    cs = (if asks then stripLastLine cs else cs) ++
      if asks && (lastLine cs).all Blank.isInline then lastLine cs else [] := by
  cases asks with
  | false => simp
  | true =>
    rw [Bool.true_and]
    exact stripLastLine_eq cs

def textAt (place : Nat) (kept : List Char) : List Token :=
  if kept.isEmpty then [] else [⟨.text, String.ofList kept, ⟨place, place + byteSize kept⟩⟩]

theorem mem_textAt {place : Nat} {kept : List Char} {t : Token} (h : t ∈ textAt place kept) :
    t = ⟨.text, String.ofList kept, ⟨place, place + byteSize kept⟩⟩ := by
  unfold textAt at h
  split at h
  · cases h
  · exact List.mem_singleton.mp h

def openingStep (c : Cursor) (o : Opener) (kept stripped sign after : List Char) : Step :=
  let d := c.past (kept ++ stripped) (o.mark ++ sign ++ after)
  ⟨textAt c.place kept ++ [d.token (.opening o.kind) (o.mark ++ sign)],
    some (.tag o false, d.past (o.mark ++ sign) after)⟩

/-- All that a step through a text can do. -/
inductive TextStep (m : Markup) (trim : Trim) (c : Cursor) : Step → Prop
  | nothing {trimmed : List Char} : trim.split c.rest = (trimmed, []) → TextStep m trim c ⟨[], none⟩
  | text {trimmed rest : List Char} : trim.split c.rest = (trimmed, rest) → rest ≠ [] →
    TextStep m trim c ⟨[(c.past trimmed rest).token .text rest], none⟩
  | opening {o : Opener} {trimmed kept stripped sign after : List Char} : o ∈ m.openers →
    trim.split c.rest = (trimmed, kept ++ (stripped ++ (o.mark ++ sign ++ after))) →
    Stripped m o.kind sign kept stripped →
    TextStep m trim c
      (openingStep (c.past trimmed (kept ++ (stripped ++ (o.mark ++ sign ++ after)))) o kept stripped
        sign after)

theorem textStep_cases (m : Markup) (trim : Trim) (c : Cursor) :
    TextStep m trim c (textStep m trim c) := by
  unfold textStep
  generalize hsplit : trim.split c.rest = parts
  obtain ⟨trimmed, rest⟩ := parts
  dsimp only
  split
  · next hempty =>
    rw [List.isEmpty_iff.mp hempty] at hsplit
    exact .nothing hsplit
  next hne =>
  split
  · exact .text hsplit fun h => hne (List.isEmpty_iff.mpr h)
  · next found hfound =>
    have hmem := Opening.find?_mem hfound
    have hfind := Opening.find?_eq_some hfound
    have hsign := openingSign_append m found.opener.kind found.after
    have hasks := openingSign_strips m found.opener.kind found.after
    generalize openingSign m found.opener.kind found.after = signs at hsign hasks ⊢
    obtain ⟨sign, asks⟩ := signs
    dsimp only at hsign hasks ⊢
    have hpiece := append_stripped asks found.before
    generalize hstripped : (if asks && (lastLine found.before).all Blank.isInline then
      lastLine found.before else []) = stripped at hpiece
    generalize (if asks then stripLastLine found.before else found.before) = kept at hpiece ⊢
    have hstrips : Stripped m found.opener.kind sign kept stripped := by
      rw [Stripped, ← hpiece, ← hasks]
      exact hstripped.symm
    have hrest : rest =
        kept ++ (stripped ++ (found.opener.mark ++ sign ++ found.after.drop sign.length)) := by
      rw [List.append_assoc found.opener.mark, hsign, ← List.append_assoc kept, ← hpiece]
      exact hfind
    rw [hrest] at hsplit
    rw [hpiece, hrest]
    exact .opening hmem hsplit hstrips

/-! ## Lexemes -/

theorem stringRest_append (escaped : Bool) (cs : List Char) :
    (stringRest escaped cs).1 ++ (stringRest escaped cs).2 = cs := by
  induction cs generalizing escaped with
  | nil => cases escaped <;> rfl
  | cons c cs ih =>
    cases escaped with
    | true => rw [stringRest, List.cons_append, ih]
    | false =>
      rw [stringRest]
      split
      · rfl
      · rw [List.cons_append, ih]

theorem numberRest_append (last : Char) (cs : List Char) :
    (numberRest last cs).1 ++ (numberRest last cs).2 = cs := by
  induction cs generalizing last with
  | nil => rfl
  | cons c cs ih =>
    rw [numberRest]
    split
    · rw [List.cons_append, ih]
    · rfl

theorem wordRest_append (closing cs : List Char) :
    (wordRest closing cs).1 ++ (wordRest closing cs).2 = cs := by
  induction cs with
  | nil => rfl
  | cons c cs ih =>
    rw [wordRest]
    split
    · rfl
    · split
      · rw [List.cons_append, ih]
      · rfl

theorem signLexeme_append (c : Char) (cs : List Char) :
    (signLexeme c cs).taken ++ (signLexeme c cs).rest = c :: cs := by
  unfold signLexeme
  split
  · split <;> rfl
  · rfl

theorem lexeme_append (closing : List Char) (afterOperand : Bool) (c : Char) (cs : List Char) :
    (lexeme closing afterOperand c cs).taken ++ (lexeme closing afterOperand c cs).rest = c :: cs := by
  unfold lexeme
  split
  · exact congrArg (c :: ·) (stringRest_append false cs)
  split
  · exact congrArg (c :: ·) (numberRest_append c cs)
  split
  · exact congrArg (c :: ·) (numberRest_append c cs)
  split
  · exact congrArg (c :: ·) (wordRest_append closing cs)
  · exact signLexeme_append c cs

def Ahead.From (cs blanks : List Char) : Ahead → Prop
  | .nothing => True
  | .mark _ taken rest => cs = blanks ++ (taken ++ rest)
  | .lexeme c rest => cs = blanks ++ c :: rest

theorem Ahead.From.cons {cs blanks : List Char} {found : Ahead} (h : found.From cs blanks)
    (c : Char) : found.From (c :: cs) (c :: blanks) := by
  cases found with
  | nothing => trivial
  | mark trim taken rest => exact congrArg (c :: ·) h
  | lexeme d rest => exact congrArg (c :: ·) h

theorem lookAhead_from (tag : TagKind) (closing cs : List Char) :
    (lookAhead tag closing cs).2.From cs (lookAhead tag closing cs).1 := by
  induction cs with
  | nil => trivial
  | cons c cs ih =>
    rw [lookAhead]
    split
    · exact ih.cons c
    · split
      · next rest hm =>
        have hd := dropMark?_eq_some hm
        exact hd
      · split
        · next rest hm =>
          split at hm
          · exact congrArg (c :: ·) (dropMark?_eq_some hm)
          · cases hm
        · split
          · exact ih.cons c
          · rfl

/-! ## The scan -/

def Placed (source : List Char) (t : Token) : Prop := t.span.Covers source t.text.toList

namespace Cursor

def At (source : List Char) (c : Cursor) : Prop :=
  ∃ before, source = before ++ c.rest ∧ byteSize before = c.place

variable {source taken rest : List Char} {c : Cursor}

theorem start_at (source : List Char) : (start source).At source := ⟨[], rfl, rfl⟩

theorem At.past (h : c.At source) (hrest : c.rest = taken ++ rest) : (c.past taken rest).At source := by
  obtain ⟨before, hs, hp⟩ := h
  refine ⟨before ++ taken, ?_, ?_⟩
  · rw [hs, hrest, List.append_assoc]
    rfl
  · rw [byteSize_append, hp]
    rfl

theorem At.token (h : c.At source) (kind : Kind) (hrest : c.rest = taken ++ rest) :
    (c.token kind taken).Placed source := by
  obtain ⟨before, hs, hp⟩ := h
  refine ⟨before, rest, ?_, ?_⟩
  · simp [Cursor.token, hs, hrest]
  · simp [Cursor.token, hp]

end Cursor

/-- The tokens of a step stand where they say, and it goes on where they end. -/
structure Step.Placed (source : List Char) (s : Step) : Prop where
  tokens : ∀ t ∈ s.tokens, t.Placed source
  next : ∀ mode c, s.next = some (mode, c) → c.At source

variable {source : List Char} {c : Cursor}

theorem Step.placed_end (source : List Char) : Step.Placed source ⟨[], none⟩ :=
  ⟨nofun, nofun⟩

theorem textStep_placed (m : Markup) (trim : Trim) (hc : c.At source) :
    (textStep m trim c).Placed source := by
  have hcases := textStep_cases m trim c
  have hstart := hc.past (trim.split_append c.rest).symm
  generalize textStep m trim c = s at hcases ⊢
  cases hcases with
  | nothing => exact Step.placed_end source
  | text hsplit =>
    rw [hsplit] at hstart
    refine ⟨?_, nofun⟩
    intro t ht
    rw [List.mem_singleton.mp ht]
    exact hstart.token .text (List.append_nil _).symm
  | opening hmem hsplit =>
    rw [hsplit] at hstart
    have hmark := hstart.past (List.append_assoc _ _ _).symm
    refine ⟨?_, ?_⟩
    · intro t ht
      rcases List.mem_append.mp ht with ht | ht
      · rw [mem_textAt ht]
        exact hstart.token .text rfl
      · rw [List.mem_singleton.mp ht]
        exact hmark.token _ rfl
    · intro mode e he
      cases he
      exact hmark.past rfl

theorem commentStep_placed (m : Markup) (opener : Opener) (hc : c.At source) :
    (commentStep m opener c).Placed source := by
  unfold commentStep
  split
  · exact Step.placed_end source
  · next body rest hsplit =>
    have hrest := splitAtMark?_eq_some hsplit
    rw [← List.append_assoc] at hrest
    refine ⟨?_, ?_⟩
    · intro t ht
      rw [List.mem_singleton.mp ht]
      exact hc.token _ hrest
    · intro mode e he
      cases he
      exact hc.past hrest

theorem tagStep_placed (m : Markup) (opener : Opener) (afterOperand : Bool) (hc : c.At source) :
    (tagStep m opener afterOperand c).Placed source := by
  unfold tagStep
  have hahead := lookAhead_from opener.kind opener.closing c.rest
  generalize lookAhead opener.kind opener.closing c.rest = found at hahead ⊢
  obtain ⟨blanks, ahead⟩ := found
  cases ahead with
  | nothing => exact Step.placed_end source
  | mark trim taken rest =>
    have hmark := hc.past hahead
    refine ⟨?_, ?_⟩
    · intro t ht
      rw [List.mem_singleton.mp ht]
      exact hmark.token _ rfl
    · intro mode e he
      cases he
      exact hmark.past rfl
  | lexeme d cs =>
    have hfound := hc.past hahead
    have happend := lexeme_append opener.closing afterOperand d cs
    refine ⟨?_, ?_⟩
    · intro t ht
      rw [List.mem_singleton.mp ht]
      exact hfound.token _ happend.symm
    · intro mode e he
      cases he
      exact hfound.past happend.symm

theorem step_placed (m : Markup) (mode : Mode) (hc : c.At source) : (step m mode c).Placed source := by
  cases mode with
  | text trim => exact textStep_placed m trim hc
  | tag opener afterOperand =>
    rw [step]
    split
    · exact commentStep_placed m opener hc
    · exact tagStep_placed m opener afterOperand hc

theorem steps_placed (m : Markup) (n : Nat) (mode : Mode) (hc : c.At source) :
    ∀ t ∈ steps m n mode c, t.Placed source := by
  induction n generalizing mode c with
  | zero => exact nofun
  | succ n ih =>
    have hstep := step_placed m mode hc
    rw [steps]
    split
    · exact hstep.tokens
    · next mode' d hnext =>
      intro t ht
      rcases List.mem_append.mp ht with ht | ht
      · exact hstep.tokens t ht
      · exact ih mode' (hstep.next mode' d hnext) t ht

theorem scan_placed (m : Markup) (source : String) :
    ∀ t ∈ scan m source, t.Placed source.toList :=
  steps_placed m _ _ (Cursor.start_at _)

end Token

end Stencil

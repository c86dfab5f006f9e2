import Stencil.Proofs.Placement.Tokens
import Stencil.Proofs.Text.Bytes
import Stencil.Token.Reader
/-!
# Tokens cover their source

Between two tokens of a source there are only blanks, and so there are behind the last one, unless it
opens a comment that is not closed. A reader that is called again and again gives out these tokens and
then the end of input for ever.
-/

namespace Stencil

/-! ## Marks -/

namespace Opener

def Marked (o : Opener) : Prop := o.mark ≠ [] ∧ o.closing ≠ []

theorem mem_insert {o p : Opener} {os : List Opener} (h : p ∈ o.insert os) : p = o ∨ p ∈ os := by
  induction os with
  | nil => exact .inl (List.mem_singleton.mp h)
  | cons q rest ih =>
    rw [insert] at h
    split at h
    · exact List.mem_cons.mp h
    · rcases List.mem_cons.mp h with rfl | h
      · exact .inr List.mem_cons_self
      · exact (ih h).imp_right (List.mem_cons_of_mem q)

theorem mem_of_mem_foldr_insert {o : Opener} {os : List Opener} (h : o ∈ os.foldr insert []) :
    o ∈ os := by
  induction os with
  | nil => exact h
  | cons p rest ih =>
    rcases mem_insert h with rfl | h
    · exact List.mem_cons_self
    · exact List.mem_cons_of_mem p (ih h)

theorem ofPair_marked (kind : TagKind) (p : MarkPair) : (ofPair kind p).Marked :=
  ⟨mt String.toList_eq_nil_iff.mp p.opening_ne, mt String.toList_eq_nil_iff.mp p.closing_ne⟩

theorem ofLine_marked (l : LineMark) : (ofLine l).Marked :=
  ⟨mt String.toList_eq_nil_iff.mp l.opening_ne, List.cons_ne_nil _ _⟩

end Opener

theorem Markup.openers_marked (m : Markup) : ∀ o ∈ m.openers, o.Marked := by
  intro o ho
  have hlisted := Opener.mem_of_mem_foldr_insert ho
  simp only [List.mem_append, Option.mem_toList, Option.map_eq_some_iff] at hlisted
  rcases hlisted with ((⟨p, -, rfl⟩ | ⟨p, -, rfl⟩) | ⟨p, -, rfl⟩) | ⟨l, -, rfl⟩
  · exact Opener.ofPair_marked _ p
  · exact Opener.ofPair_marked _ p
  · exact Opener.ofPair_marked _ p
  · exact Opener.ofLine_marked l

/-! ## Blanks -/

def Blank.All (cs : List Char) : Prop := ∀ c ∈ cs, Blank.isAscii c

namespace Blank

theorem all_nil : All [] := nofun

theorem All.cons {c : Char} {cs : List Char} (hc : isAscii c) (h : All cs) : All (c :: cs) :=
  List.forall_mem_cons.mpr ⟨hc, h⟩

theorem All.append {a b : List Char} (ha : All a) (hb : All b) : All (a ++ b) :=
  List.forall_mem_append.mpr ⟨ha, hb⟩

theorem isAscii_of_isInline {c : Char} (h : isInline c) : isAscii c := by
  simp only [isInline, Bool.or_eq_true] at h
  simp only [isAscii, Bool.or_eq_true]
  tauto

end Blank

namespace Token

theorem Trim.split_blank (trim : Trim) (cs : List Char) : Blank.All (trim.split cs).1 := by
  cases trim with
  | nothing => exact Blank.all_nil
  | blanks =>
    intro c hc
    rw [Trim.split, List.span_eq_takeWhile_dropWhile] at hc
    exact List.all_eq_true.mp List.all_takeWhile c hc
  | line =>
    have hlead : Blank.All (cs.span Blank.isInline).1 := by
      intro c hc
      rw [List.span_eq_takeWhile_dropWhile] at hc
      exact Blank.isAscii_of_isInline (List.all_eq_true.mp List.all_takeWhile c hc)
    rw [Trim.split]
    split
    · rename_i heq
      rw [heq] at hlead
      exact hlead.append (.cons rfl (.cons rfl Blank.all_nil))
    · rename_i heq
      rw [heq] at hlead
      exact hlead.append (.cons rfl Blank.all_nil)
    · exact Blank.all_nil

theorem lookAhead_blank (tag : TagKind) (closing cs : List Char) :
    Blank.All (lookAhead tag closing cs).1 ∧
      ((lookAhead tag closing cs).2 = .nothing → Blank.All cs) := by
  induction cs with
  | nil => exact ⟨Blank.all_nil, fun _ => Blank.all_nil⟩
  | cons c cs ih =>
    rw [lookAhead]
    split
    · next hc =>
      have hblank : Blank.isAscii c := by
        simp only [Bool.or_eq_true, decide_eq_true_eq] at hc
        rcases hc with (rfl | rfl) | rfl <;> rfl
      exact ⟨ih.1.cons hblank, fun h => (ih.2 h).cons hblank⟩
    · split
      · exact ⟨Blank.all_nil, by simp⟩
      · split
        · exact ⟨Blank.all_nil, by simp⟩
        · split
          · next hc =>
            have hblank : Blank.isAscii c := hc ▸ rfl
            exact ⟨ih.1.cons hblank, fun h => (ih.2 h).cons hblank⟩
          · exact ⟨Blank.all_nil, by simp⟩

/-! ## Lexemes -/

def Kind.isInner : Kind → Bool
  | .text | .opening _ | .closing _ | .endOfInput => false
  | _ => true

theorem Kind.ne_of_isInner {kind other : Kind} (h : kind.isInner) (hother : other.isInner = false) :
    kind ≠ other := by
  rintro rfl
  rw [h] at hother
  cases hother

theorem pairSign?_isInner {c d : Char} {kind : Kind} (h : pairSign? c d = some kind) :
    kind.isInner := by
  unfold pairSign? at h
  split at h <;> cases h <;> rfl

theorem sign?_isInner {c : Char} {kind : Kind} (h : sign? c = some kind) : kind.isInner := by
  unfold sign? at h
  split at h <;> cases h <;> rfl

theorem sign?_getD_isInner (c : Char) : ((sign? c).getD .unknown).isInner := by
  cases h : sign? c with
  | none => rfl
  | some kind => exact sign?_isInner h

theorem lexeme_taken_ne (closing : List Char) (afterOperand : Bool) (c : Char) (cs : List Char) :
    (lexeme closing afterOperand c cs).taken ≠ [] ∧
      (lexeme closing afterOperand c cs).kind.isInner := by
  unfold lexeme
  split
  · exact ⟨List.cons_ne_nil _ _, rfl⟩
  split
  · exact ⟨List.cons_ne_nil _ _, rfl⟩
  split
  · exact ⟨List.cons_ne_nil _ _, rfl⟩
  split
  · exact ⟨List.cons_ne_nil _ _, rfl⟩
  · unfold signLexeme
    split
    · split
      · next hkind => exact ⟨List.cons_ne_nil _ _, pairSign?_isInner hkind⟩
      · exact ⟨List.cons_ne_nil _ _, sign?_getD_isInner c⟩
    · exact ⟨List.cons_ne_nil _ _, sign?_getD_isInner c⟩

theorem lookAhead_taken_ne {tag : TagKind} {closing cs : List Char} (hclosing : closing ≠ []) :
    ∀ trim taken rest, (lookAhead tag closing cs).2 = .mark trim taken rest → taken ≠ [] := by
  induction cs with
  | nil => simp [lookAhead]
  | cons c cs ih =>
    rw [lookAhead]
    split
    · exact ih
    · split
      · rintro _ _ _ ⟨⟩
        exact hclosing
      · split
        · rintro _ _ _ ⟨⟩
          exact List.cons_ne_nil _ _
        · split
          · exact ih
          · simp

/-! ## Tokens with blanks between them -/

/-- The tokens follow each other in a text that stands at `place`, with only blanks in front of each.
Behind the last one, at `stop`, the text goes on with `rest`. -/
inductive Tiles : Nat → List Char → List Token → Nat → List Char → Prop
  | nil {place : Nat} {cs : List Char} : Tiles place cs [] place cs
  | cons {place stop : Nat} {gap text cs rest : List Char} {kind : Kind} {ts : List Token} :
    Blank.All gap → text ≠ [] → kind ≠ .endOfInput →
    Tiles (place + byteSize gap + byteSize text) cs ts stop rest →
      Tiles place (gap ++ (text ++ cs))
        (⟨kind, String.ofList text,
          ⟨place + byteSize gap, place + byteSize gap + byteSize text⟩⟩ :: ts) stop rest

namespace Tiles

variable {place place' stop : Nat} {cs cs' rest : List Char} {ts us : List Token}

theorem append (h : Tiles place cs ts place' cs') (h' : Tiles place' cs' us stop rest) :
    Tiles place cs (ts ++ us) stop rest := by
  induction h with
  | nil => exact h'
  | cons hgap htext hkind _ ih => exact .cons hgap htext hkind (ih h')

theorem token {c : Cursor} {gap text : List Char} {kind : Kind} (hplace : c.place = place + byteSize gap)
    (hcs : cs = gap ++ (text ++ rest)) (hgap : Blank.All gap) (htext : text ≠ [])
    (hkind : kind ≠ .endOfInput) :
    Tiles place cs [c.token kind text] (c.past text rest).place rest := by
  rw [hcs, Cursor.token, Cursor.past, hplace]
  exact .cons hgap htext hkind .nil

theorem length_le (h : Tiles place cs ts stop rest) : rest.length + ts.length ≤ cs.length := by
  induction h with
  | nil => exact Nat.le_refl _
  | cons _ htext _ _ ih =>
    have hpos := List.length_pos_iff.mpr htext
    simp only [List.length_append, List.length_cons]
    omega

theorem split (h : Tiles place cs ts stop rest) :
    ∃ front, cs = front ++ rest ∧ place + byteSize front = stop := by
  induction h with
  | nil => exact ⟨[], rfl, rfl⟩
  | @cons place stop gap text cs rest kind ts _ _ _ _ ih =>
    obtain ⟨front, rfl, hstop⟩ := ih
    refine ⟨gap ++ (text ++ front), by simp, ?_⟩
    rw [← hstop, byteSize_append, byteSize_append]
    omega

end Tiles

variable {m : Markup} {place : Nat} {source cs rest : List Char} {ts : List Token} {c : Cursor}

/-! ## One step -/

def Mode.InComment : Mode → Prop
  | .text _ => False
  | .tag opener _ => opener.kind = .comment

def Mode.Ready (m : Markup) : Mode → Prop
  | .text _ => True
  | .tag opener _ => opener ∈ m.openers

def OpensComment (ts : List Token) : Prop :=
  ∃ t, ts.getLast? = some t ∧ t.kind = .opening .comment

/-- The tokens of a step cover what it takes from the source. If it does not say how to go on it leaves
blanks only, or a comment that is not closed. -/
def Step.Covers (m : Markup) (mode : Mode) (c : Cursor) (s : Step) : Prop :=
  match s.next with
  | some (mode', d) =>
    Tiles c.place c.rest s.tokens d.place d.rest ∧ s.tokens ≠ [] ∧ mode'.Ready m ∧
      (mode'.InComment → OpensComment s.tokens)
  | none =>
    ∃ stop rest, Tiles c.place c.rest s.tokens stop rest ∧
      (Blank.All rest ∨ s.tokens = [] ∧ mode.InComment)

theorem textStep_covers (m : Markup) (trim : Trim) (c : Cursor) :
    (textStep m trim c).Covers m (.text trim) c := by
  have hcases := textStep_cases m trim c
  have happend := trim.split_append c.rest
  have hblank := trim.split_blank c.rest
  generalize textStep m trim c = s at hcases ⊢
  cases hcases with
  | nothing hsplit =>
    rw [hsplit] at happend hblank
    rw [List.append_nil] at happend
    exact ⟨c.place, c.rest, .nil, .inl (happend ▸ hblank)⟩
  | @text trimmed rest hsplit hne =>
    rw [hsplit] at happend hblank
    have htile : Tiles c.place c.rest [(c.past trimmed rest).token .text rest]
        ((c.past trimmed rest).past rest []).place [] :=
      .token rfl (by rw [List.append_nil, happend]) hblank hne nofun
    exact ⟨_, [], htile, .inl Blank.all_nil⟩
  | @opening o trimmed kept stripped sign after hmem hsplit hstrips =>
    rw [hsplit] at happend hblank
    have hstripped : Blank.All stripped := fun c hc => Blank.isAscii_of_isInline (hstrips.blank c hc)
    have hmark : o.mark ++ sign ≠ [] :=
      List.append_ne_nil_of_left_ne_nil (m.openers_marked _ hmem).1 sign
    refine ⟨?_, List.append_ne_nil_of_right_ne_nil _ (List.cons_ne_nil _ _), hmem, ?_⟩
    · unfold openingStep textAt
      by_cases hempty : kept = []
      · subst hempty
        have hgap : Blank.All (trimmed ++ stripped) := hblank.append hstripped
        refine .token ?_ ?_ hgap hmark nofun
        · simp [Cursor.past, Nat.add_assoc]
        · simpa using happend.symm
      · rw [if_neg (by simpa using hempty)]
        refine Tiles.append (.token rfl happend.symm hblank hempty nofun)
          (.token ?_ rfl hstripped hmark nofun)
        simp [Cursor.past, Nat.add_assoc]
    · intro hcomment
      exact ⟨_, List.getLast?_concat, congrArg Kind.opening hcomment⟩

theorem commentStep_covers {opener : Opener} (hopener : opener ∈ m.openers)
    (hkind : opener.kind = .comment) (afterOperand : Bool) (c : Cursor) :
    (commentStep m opener c).Covers m (.tag opener afterOperand) c := by
  unfold commentStep
  split
  · exact ⟨c.place, c.rest, .nil, .inr ⟨rfl, hkind⟩⟩
  · next body rest hsplit =>
    have hrest := splitAtMark?_eq_some hsplit
    rw [← List.append_assoc] at hrest
    have htaken : body ++ opener.closing ≠ [] :=
      List.append_ne_nil_of_right_ne_nil body (m.openers_marked _ hopener).2
    exact ⟨.token rfl hrest Blank.all_nil htaken nofun, List.cons_ne_nil _ _, trivial, nofun⟩

theorem tagStep_covers {opener : Opener} (hopener : opener ∈ m.openers)
    (hkind : opener.kind ≠ .comment) (afterOperand : Bool) (c : Cursor) :
    (tagStep m opener afterOperand c).Covers m (.tag opener afterOperand) c := by
  unfold tagStep
  have hfrom := lookAhead_from opener.kind opener.closing c.rest
  have hblank := lookAhead_blank opener.kind opener.closing c.rest
  have htaken : ∀ trim taken rest,
      (lookAhead opener.kind opener.closing c.rest).2 = .mark trim taken rest → taken ≠ [] :=
    lookAhead_taken_ne (m.openers_marked _ hopener).2
  generalize lookAhead opener.kind opener.closing c.rest = found at hfrom hblank htaken ⊢
  obtain ⟨blanks, ahead⟩ := found
  cases ahead with
  | nothing => exact ⟨c.place, c.rest, .nil, .inl (hblank.2 rfl)⟩
  | mark trim taken rest =>
    exact ⟨.token rfl hfrom hblank.1 (htaken _ _ _ rfl) nofun, List.cons_ne_nil _ _, trivial, nofun⟩
  | lexeme d cs =>
    have happend := lexeme_append opener.closing afterOperand d cs
    obtain ⟨htext, hinner⟩ := lexeme_taken_ne opener.closing afterOperand d cs
    refine ⟨.token rfl ?_ hblank.1 htext (Kind.ne_of_isInner hinner rfl), List.cons_ne_nil _ _, hopener,
      fun h => absurd h hkind⟩
    rw [happend]
    exact hfrom

theorem step_covers {mode : Mode} (hmode : mode.Ready m) (c : Cursor) :
    (step m mode c).Covers m mode c := by
  cases mode with
  | text trim => exact textStep_covers m trim c
  | tag opener afterOperand =>
    rw [step]
    split
    · next hkind => exact commentStep_covers hmode hkind afterOperand c
    · next hkind => exact tagStep_covers hmode hkind afterOperand c

/-! ## All steps -/

theorem steps_cover {n : Nat} {mode : Mode} (hmode : mode.Ready m) (hn : c.rest.length < n) :
    ∃ stop rest, Tiles c.place c.rest (steps m n mode c) stop rest ∧
      (Blank.All rest ∨ OpensComment (steps m n mode c) ∨
        steps m n mode c = [] ∧ mode.InComment) := by
  induction n generalizing mode c with
  | zero => exact absurd hn (Nat.not_lt_zero _)
  | succ n ih =>
    have hstep := step_covers hmode c
    unfold Step.Covers at hstep
    rw [steps]
    split
    · next hnext =>
      rw [hnext] at hstep
      obtain ⟨stop, rest, htiles, hend⟩ := hstep
      exact ⟨stop, rest, htiles, hend.imp_right .inr⟩
    · next mode' d hnext =>
      rw [hnext] at hstep
      obtain ⟨htiles, hne, hmode', hcomment⟩ := hstep
      have hlength := htiles.length_le
      have hpos := List.length_pos_iff.mpr hne
      obtain ⟨stop, rest, hrest, hend⟩ := ih hmode' (show d.rest.length < n by omega)
      refine ⟨stop, rest, htiles.append hrest, ?_⟩
      rcases hend with hblank | ⟨t, hlast, ht⟩ | ⟨hnil, hin⟩
      · exact .inl hblank
      · exact .inr (.inl ⟨t, by rw [List.getLast?_append, hlast, Option.some_or], ht⟩)
      · rw [hnil, List.append_nil]
        exact .inr (.inl (hcomment hin))

theorem scan_tiles (m : Markup) (source : String) :
    ∃ stop rest, Tiles 0 source.toList (scan m source) stop rest ∧
      (Blank.All rest ∨ OpensComment (scan m source)) := by
  have hready : (Mode.text .nothing).Ready m := trivial
  have hlength : (Cursor.start source.toList).rest.length < source.toList.length + 1 :=
    Nat.lt_succ_self _
  obtain ⟨stop, rest, htiles, hend⟩ := steps_cover hready hlength
  refine ⟨stop, rest, htiles, ?_⟩
  rcases hend with hblank | hopens | ⟨-, hin⟩
  · exact .inl hblank
  · exact .inr hopens
  · exact hin.elim

/-! ## Spans -/

namespace Tiles

variable {stop : Nat}

/-- A token that takes some part of the text, and so is not the end of input. -/
def Takes (place stop : Nat) (t : Token) : Prop :=
  t.kind ≠ .endOfInput ∧ place ≤ t.span.start ∧ t.span.start < t.span.stop ∧ t.span.stop ≤ stop

theorem le (h : Tiles place cs ts stop rest) : place ≤ stop := by
  induction h with
  | nil => exact Nat.le_refl _
  | cons _ _ _ _ ih => omega

theorem byteSize_pos {cs : List Char} (h : cs ≠ []) : 0 < byteSize cs := by
  cases cs with
  | nil => exact absurd rfl h
  | cons c cs =>
    rw [byteSize_cons]
    exact Nat.add_pos_left c.utf8Size_pos _

theorem takes (h : Tiles place cs ts stop rest) : ∀ t ∈ ts, Takes place stop t := by
  induction h with
  | nil => exact nofun
  | @cons place stop gap text cs rest kind ts hgap htext hkind htail ih =>
    have hpos := byteSize_pos htext
    have hle := htail.le
    rw [List.forall_mem_cons]
    refine ⟨⟨hkind, ?_, ?_, hle⟩, ?_⟩
    · show place ≤ place + byteSize gap
      omega
    · show place + byteSize gap < place + byteSize gap + byteSize text
      omega
    · intro t ht
      obtain ⟨hend, hstart, hlt, hstop⟩ := ih t ht
      exact ⟨hend, by omega, hlt, hstop⟩

theorem ascend (h : Tiles place cs ts stop rest) :
    ts.Pairwise fun t u => t.span.stop ≤ u.span.start := by
  induction h with
  | nil => exact .nil
  | cons _ _ _ htail ih => exact .cons (fun u hu => (htail.takes u hu).2.1) ih

end Tiles

/-! ## Bytes -/

def blankBytes : List UInt8 := [0x09, 0x0a, 0x0c, 0x0d, 0x20]

theorem blankBytes_of_isAscii {c : Char} (h : Blank.isAscii c) :
    ∀ b ∈ String.utf8EncodeChar c, b ∈ blankBytes := by
  simp only [Blank.isAscii, Bool.or_eq_true, beq_iff_eq] at h
  rcases h with (((rfl | rfl) | rfl) | rfl) | rfl <;> decide +kernel

theorem mem_blankBytes {gap : List Char} (h : Blank.All gap) : ∀ b ∈ encoded gap, b ∈ blankBytes := by
  intro b hb
  obtain ⟨c, hc, hb⟩ := List.mem_flatMap.mp hb
  exact blankBytes_of_isAscii (h c hc) b hb

theorem Tiles.blank {stop : Nat} (h : Tiles place cs ts stop rest) {n : Nat} {b : UInt8}
    (hb : (encoded cs)[n]? = some b) (hn : place + n < stop)
    (hfree : ∀ t ∈ ts, ¬ (t.span.start ≤ place + n ∧ place + n < t.span.stop)) :
    b ∈ blankBytes := by
  induction h generalizing n with
  | nil => omega
  | @cons place stop gap text cs rest kind ts hgap htext hkind htail ih =>
    rw [List.forall_mem_cons] at hfree
    obtain ⟨hfirst, hothers⟩ := hfree
    rw [encoded_append, encoded_append] at hb
    rcases Nat.lt_or_ge n (byteSize gap) with hgapn | hgapn
    · -- The byte stands in front of the first token.
      rw [List.getElem?_append_left (by rwa [length_encoded])] at hb
      exact mem_blankBytes hgap b (List.mem_of_getElem? hb)
    · rw [List.getElem?_append_right (by rwa [length_encoded]), length_encoded] at hb
      have hbehind : byteSize gap + byteSize text ≤ n := by
        have hfirst' : ¬ (place + byteSize gap ≤ place + n ∧
            place + n < place + byteSize gap + byteSize text) := hfirst
        omega
      rw [List.getElem?_append_right (by rw [length_encoded]; omega), length_encoded] at hb
      have hplace : place + byteSize gap + byteSize text + (n - byteSize gap - byteSize text) =
          place + n := by omega
      refine ih hb (by omega) ?_
      rw [hplace]
      exact hothers

/-! ## One token after the other -/

namespace Reader

variable {r : Reader} {stop : Nat}

/-- The reader stands in front of the rest of a source that ends at `stop`, and the tokens are those
that it has not given out yet. -/
structure Gives (m : Markup) (stop : Nat) (r : Reader) (ts : List Token) : Prop where
  mode : r.mode.Ready m
  stop_eq : r.cursor.place + byteSize r.cursor.rest = stop
  tokens : ∃ n, r.cursor.rest.length < n ∧ ts = r.waiting ++ steps m n r.mode r.cursor

theorem start_gives (m : Markup) (source : String) :
    (start source).Gives m (byteSize source.toList) (scan m source) :=
  ⟨trivial, Nat.zero_add _, _, Nat.lt_succ_self _, rfl⟩

theorem steps_of_rest_nil {mode : Mode} (hmode : mode.Ready m) (hc : c.rest = []) (n : Nat) :
    steps m n mode c = [] := by
  cases n with
  | zero => rfl
  | succ n =>
    have hstep := step_covers hmode c
    unfold Step.Covers at hstep
    rw [hc] at hstep
    rw [steps]
    split
    · next hnext =>
      rw [hnext] at hstep
      obtain ⟨_, _, htiles, -⟩ := hstep
      exact List.length_eq_zero_iff.mp (Nat.le_zero.mp (Nat.le_of_add_left_le htiles.length_le))
    · next mode' d hnext =>
      rw [hnext] at hstep
      obtain ⟨htiles, hne, -⟩ := hstep
      have hnone := Nat.le_zero.mp (Nat.le_of_add_left_le htiles.length_le)
      exact absurd (List.length_eq_zero_iff.mp hnone) hne

theorem Gives.advance (h : r.Gives m stop ts) (hr : r.waiting = []) :
    (r.advance m).Gives m stop ts ∧
      ((r.advance m).waiting = [] → ts = [] ∧ (r.advance m).cursor.place = stop) := by
  obtain ⟨hmode, hstop, n, hn, hts⟩ := h
  have hstep := step_covers hmode r.cursor
  unfold Step.Covers at hstep
  obtain ⟨n, rfl⟩ := Nat.exists_eq_succ_of_ne_zero (Nat.ne_zero_of_lt hn)
  rw [hr, List.nil_append, steps] at hts
  unfold Reader.advance
  dsimp only
  cases hnext : (step m r.mode r.cursor).next with
  | none =>
    rw [hnext] at hts
    refine ⟨⟨hmode, hstop, 1, Nat.zero_lt_one, ?_⟩, fun hwaiting => ⟨hts.trans hwaiting, hstop⟩⟩
    rw [steps_of_rest_nil hmode rfl, List.append_nil]
    exact hts
  | some next =>
    obtain ⟨mode', d⟩ := next
    rw [hnext] at hts hstep
    obtain ⟨htiles, hne, hmode', -⟩ := hstep
    have hlength := htiles.length_le
    have hpos := List.length_pos_iff.mpr hne
    obtain ⟨front, hrest, hplace⟩ := htiles.split
    have hstop' : d.place + byteSize d.rest = stop := by
      rw [← hplace, ← hstop, hrest, byteSize_append, Nat.add_assoc]
    exact ⟨⟨hmode', hstop', n, (show d.rest.length < n by omega), hts⟩,
      fun hwaiting => absurd hwaiting hne⟩

/-- A reader gives out the first of its tokens, or the end of input if there are none. -/
def GivesNext (m : Markup) (stop : Nat) (ts : List Token) (found : Token × Reader) : Prop :=
  found.1 = ts.head?.getD (.atEnd stop) ∧ found.2.Gives m stop ts.tail

theorem Gives.give (h : r.Gives m stop ts)
    (hempty : r.waiting = [] → ts = [] ∧ r.cursor.place = stop) : GivesNext m stop ts r.give := by
  unfold Reader.give
  split
  · next t rest hwaiting =>
    obtain ⟨hmode, hstop, n, hn, hts⟩ := h
    rw [hwaiting] at hts
    subst hts
    exact ⟨rfl, hmode, hstop, n, hn, rfl⟩
  · next hwaiting =>
    obtain ⟨rfl, hplace⟩ := hempty hwaiting
    exact ⟨congrArg Token.atEnd hplace, h⟩

theorem Gives.next (h : r.Gives m stop ts) : GivesNext m stop ts (r.next m) := by
  unfold Reader.next
  split
  · next hwaiting =>
    obtain ⟨hadvance, hempty⟩ := h.advance (List.isEmpty_iff.mp hwaiting)
    exact hadvance.give hempty
  · next hwaiting => exact h.give fun hnil => absurd (List.isEmpty_iff.mpr hnil) hwaiting

theorem Gives.nth (h : r.Gives m stop ts) (n : Nat) : nth m n r = ts[n]?.getD (.atEnd stop) := by
  induction n generalizing r ts with
  | zero =>
    rw [Reader.nth, h.next.1, List.head?_eq_getElem?]
  | succ n ih =>
    rw [Reader.nth, ih h.next.2, List.getElem?_tail]

end Reader

/-! ## The whole source -/

/-- Reading a source token by token gives its tokens and then the end of input for ever. The tokens take
parts of the source one after the other, and every byte that none of them takes is a blank, or in the
body of a comment that the last one opens. -/
theorem reader_covers (m : Markup) (source : String) :
    (∀ n, Reader.nth m n (.start source) =
      (scan m source)[n]?.getD (.atEnd source.utf8ByteSize)) ∧
    (∀ t ∈ scan m source, t.kind ≠ .endOfInput ∧ t.span.start < t.span.stop ∧
      t.span.stop ≤ source.utf8ByteSize ∧ t.span.Covers source.toList t.text.toList) ∧
    (scan m source).Pairwise (fun t u => t.span.stop ≤ u.span.start) ∧
    ∀ n b, source.toUTF8.data[n]? = some b →
      (∀ t ∈ scan m source, ¬ (t.span.start ≤ n ∧ n < t.span.stop)) →
      b ∈ blankBytes ∨ ∃ t, (scan m source).getLast? = some t ∧ t.kind = .opening .comment ∧
        t.span.stop ≤ n := by
  have hbytes := toList_toUTF8 source
  have hsize := byteSize_toList source
  obtain ⟨stop, rest, htiles, hend⟩ := scan_tiles m source
  obtain ⟨front, hfront, hstop⟩ := htiles.split
  rw [Nat.zero_add] at hstop
  refine ⟨?_, ?_, htiles.ascend, ?_⟩
  · intro n
    rw [← hsize]
    exact (Reader.start_gives m source).nth n
  · intro t ht
    obtain ⟨hkind, -, hlt, hle⟩ := htiles.takes t ht
    refine ⟨hkind, hlt, ?_, scan_placed m source t ht⟩
    rw [← hsize, hfront, byteSize_append]
    omega
  · intro n b hb hfree
    rw [← Array.getElem?_toList, hbytes] at hb
    rcases Nat.lt_or_ge n stop with hn | hn
    · refine .inl (htiles.blank hb (by omega) ?_)
      rw [Nat.zero_add]
      exact hfree
    · rcases hend with hblank | ⟨t, hlast, hopens⟩
      · rw [hfront, encoded_append, List.getElem?_append_right (by rwa [length_encoded, hstop])] at hb
        exact .inl (mem_blankBytes hblank b (List.mem_of_getElem? hb))
      · exact .inr ⟨t, hlast, hopens,
          Nat.le_trans (htiles.takes t (List.mem_of_getLast? hlast)).2.2.2 hn⟩

end Token

end Stencil

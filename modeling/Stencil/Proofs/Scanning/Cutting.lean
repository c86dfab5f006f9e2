import Stencil.Proofs.Printing.Scan
import Stencil.Proofs.Scanning.Pair
/-!
# Cutting a part of a tag

The tokens of a source from some place on do not depend on how many steps are left, if there are enough.
So a tag can be followed from token to token, and what stands behind a part of it is read after the part
as it is read by itself.
-/

namespace Stencil

/-! ## Where a tag goes on -/

namespace Opener

/-- The closing mark begins with no blank, and may stand in front of any tag. -/
def Tight (o : Opener) : Prop :=
  o.kind ≠ .comment ∧ ∃ d ds, o.closing = d :: ds ∧ Json.isBlank d = false

/-- Nothing at this place ends the tag, and no blank stands here. -/
structure Passes (o : Opener) (c : Char) (cs : List Char) : Prop where
  notBlank : Json.isBlank c = false
  mark : dropMark? o.closing (c :: cs) = none
  trimmed : c = '-' → dropMark? o.closing cs = none

end Opener

namespace Token

variable {m : Markup} {o : Opener} {mode mode' mode'' : Mode} {b : Bool} {c d e : Cursor} {n n' : Nat}
  {ts us : List Token} {source blanks cs rest : List Char}

/-! ## As many steps as there are -/

theorem steps_eq (hmode : mode.Ready m) (hn : c.rest.length < n) (hn' : c.rest.length < n') :
    steps m n mode c = steps m n' mode c := by
  induction n generalizing n' mode c with
  | zero => exact absurd hn (Nat.not_lt_zero _)
  | succ n ih =>
    obtain ⟨n', rfl⟩ : ∃ k, n' = k + 1 := ⟨n' - 1, by omega⟩
    have hstep := step_covers hmode c
    unfold Step.Covers at hstep
    rw [steps, steps]
    cases hnext : (step m mode c).next with
    | none => rfl
    | some next =>
      obtain ⟨mode', d⟩ := next
      rw [hnext] at hstep
      obtain ⟨htiles, hne, hmode', -⟩ := hstep
      have hlength := htiles.length_le
      have hpos := List.length_pos_iff.mpr hne
      dsimp only
      rw [ih hmode' (show d.rest.length < n by omega) (show d.rest.length < n' by omega)]

def remaining (m : Markup) (mode : Mode) (c : Cursor) : List Token :=
  steps m (c.rest.length + 1) mode c

theorem scan_eq (m : Markup) (source : String) :
    scan m source = remaining m (.text .nothing) (.start source.toList) := rfl

theorem remaining_of_step (hmode' : mode'.Ready m)
    (h : step m mode c = ⟨ts, some (mode', d)⟩) (hlength : d.rest.length < c.rest.length) :
    remaining m mode c = ts ++ remaining m mode' d := by
  rw [remaining, steps, h]
  dsimp only
  rw [remaining, steps_eq hmode' hlength (Nat.lt_succ_self _)]

theorem remaining_nil (hmode : mode.Ready m) (hc : c.rest = []) : remaining m mode c = [] :=
  Reader.steps_of_rest_nil hmode hc _

/-! ## Some steps -/

/-- Some steps, and the tokens that they find. -/
inductive Cuts (m : Markup) : Mode → Cursor → List Token → Mode → Cursor → Prop
  | refl {mode : Mode} {c : Cursor} : Cuts m mode c [] mode c
  | step {mode mode' mode'' : Mode} {c d e : Cursor} {ts us : List Token} :
    Token.step m mode c = ⟨ts, some (mode', d)⟩ → Cuts m mode' d us mode'' e →
      Cuts m mode c (ts ++ us) mode'' e

namespace Cuts

theorem once (h : Token.step m mode c = ⟨ts, some (mode', d)⟩) : Cuts m mode c ts mode' d := by
  have hcuts : Cuts m mode c (ts ++ []) mode' d := .step h .refl
  rwa [List.append_nil] at hcuts

theorem trans (h : Cuts m mode c ts mode' d) (h' : Cuts m mode' d us mode'' e) :
    Cuts m mode c (ts ++ us) mode'' e := by
  induction h with
  | refl => exact h'
  | step hstep _ ih =>
    rw [List.append_assoc]
    exact .step hstep (ih h')

theorem at_source (h : Cuts m mode c ts mode' d) (hc : c.At source) : d.At source := by
  induction h with
  | refl => exact hc
  | @step mode _ _ _ _ _ _ _ hstep _ ih =>
    have hplaced := step_placed m mode hc
    rw [hstep] at hplaced
    exact ih (hplaced.next _ _ rfl)

theorem remaining_eq (h : Cuts m mode c ts mode' d) (hmode : mode.Ready m) :
    mode'.Ready m ∧ remaining m mode c = ts ++ remaining m mode' d := by
  induction h with
  | refl => exact ⟨hmode, rfl⟩
  | @step mode mode' mode'' c d e ts us hstep _ ih =>
    have hcovers := step_covers hmode c
    unfold Step.Covers at hcovers
    rw [hstep] at hcovers
    obtain ⟨htiles, hne, hmode', -⟩ := hcovers
    have hlength := htiles.length_le
    have hpos := List.length_pos_iff.mpr hne
    obtain ⟨hready, htail⟩ := ih hmode'
    refine ⟨hready, ?_⟩
    rw [remaining_of_step hmode' hstep (by omega), htail, List.append_assoc]

theorem tiles (h : Cuts m mode c ts mode' d) (hmode : mode.Ready m) :
    Tiles c.place c.rest ts d.place d.rest := by
  induction h with
  | refl => exact .nil
  | @step mode mode' mode'' c d e ts us hstep _ ih =>
    have hcovers := step_covers hmode c
    unfold Step.Covers at hcovers
    rw [hstep] at hcovers
    exact hcovers.1.append (ih hcovers.2.2.1)

theorem suffix (h : Cuts m mode c ts mode' d) (hmode : mode.Ready m) :
    ∃ taken, c.rest = taken ++ d.rest := by
  have htiles := h.tiles hmode
  clear h
  generalize c.place = place, c.rest = cs, d.place = stop, d.rest = rest at htiles
  induction htiles with
  | nil => exact ⟨[], rfl⟩
  | @cons place stop gap text cs rest kind ts _ _ _ _ ih =>
    obtain ⟨taken, rfl⟩ := ih
    exact ⟨gap ++ (text ++ taken), by simp only [List.append_assoc]⟩

end Cuts

/-! ## One token -/

theorem lookAhead_blanks (ho : o.Tight) (hblanks : ∀ c ∈ blanks, Json.isBlank c) (cs : List Char) :
    lookAhead o.kind o.closing (blanks ++ cs) =
      (blanks ++ (lookAhead o.kind o.closing cs).1, (lookAhead o.kind o.closing cs).2) := by
  obtain ⟨-, d, ds, hclosing, hd⟩ := ho
  induction blanks with
  | nil => rfl
  | cons c blanks ih =>
    rw [List.forall_mem_cons] at hblanks
    obtain ⟨hc, hblanks⟩ := hblanks
    have hne : d ≠ c := by
      rintro rfl
      rw [hc] at hd
      cases hd
    rw [List.cons_append, lookAhead, ih hblanks, hclosing, dropMark?, if_neg hne]
    simp only [Json.isBlank, Bool.or_eq_true, beq_iff_eq] at hc
    rcases hc with ((rfl | rfl) | rfl) | rfl <;> simp

theorem lookAhead_passes (tag : TagKind) {x : Char} (h : o.Passes x cs) :
    lookAhead tag o.closing (x :: cs) = ([], .lexeme x cs) := by
  obtain ⟨hblank, hmark, htrim⟩ := h
  simp only [Json.isBlank, Bool.or_eq_false_iff, beq_eq_false_iff_ne] at hblank
  obtain ⟨⟨⟨hspace, htab⟩, hline⟩, hreturn⟩ := hblank
  by_cases hx : x = '-'
  · subst hx
    simp [lookAhead, hmark, htrim rfl]
  · simp [lookAhead, hmark, hx, hspace, htab, hreturn, hline]

structure Found (c : Cursor) (blanks : List Char) (kind : Kind) (t : Token) (d : Cursor) : Prop where
  kind : t.kind = kind
  text : c.rest = blanks ++ (t.text.toList ++ d.rest)
  span : t.span = ⟨c.place + byteSize blanks, d.place⟩

theorem Cuts.lexeme (ho : o.Tight) (hblanks : ∀ c ∈ blanks, Json.isBlank c) {x : Char}
    (hpasses : o.Passes x cs) (hc : c.rest = blanks ++ x :: cs) {found : Lexeme}
    (hfound : Token.lexeme o.closing b x cs = found) :
    ∃ t d, Cuts m (.tag o b) c [t] (.tag o found.kind.endsOperand) d ∧
      Found c blanks found.kind t d ∧ d.rest = found.rest := by
  have hahead := lookAhead_blanks ho hblanks (x :: cs)
  rw [lookAhead_passes _ hpasses, ← hc, List.append_nil] at hahead
  have hstep : Token.step m (.tag o b) c = ⟨[(c.past blanks (x :: cs)).token found.kind found.taken],
      some (.tag o found.kind.endsOperand, (c.past blanks (x :: cs)).past found.taken found.rest)⟩ := by
    rw [Token.step, if_neg ho.1, tagStep, hahead, ← hfound]
  refine ⟨_, _, .once hstep, ⟨rfl, ?_, rfl⟩, rfl⟩
  have happend := lexeme_append o.closing b x cs
  rw [hfound] at happend
  rw [hc, ← happend]
  simp [Cursor.token, Cursor.past]

theorem Cuts.closing (ho : o.Tight) (hblanks : ∀ c ∈ blanks, Json.isBlank c)
    (hc : c.rest = blanks ++ (o.closing ++ rest)) :
    ∃ t d, Cuts m (.tag o b) c [t] (.text (trimAfter m o.kind false)) d ∧
      Found c blanks (.closing o.kind) t d ∧ d.rest = rest := by
  obtain ⟨hkind, x, xs, hclosing, hx⟩ := ho
  have hmark : lookAhead o.kind o.closing (o.closing ++ rest) = ([], .mark false o.closing rest) := by
    have hfound := dropMark?_append o.closing rest
    simp only [Json.isBlank, Bool.or_eq_false_iff, beq_eq_false_iff_ne] at hx
    obtain ⟨⟨⟨hspace, htab⟩, hline⟩, hreturn⟩ := hx
    rw [hclosing, List.cons_append] at hfound ⊢
    rw [lookAhead, hfound]
    simp [hspace, htab, hreturn]
  have hahead := lookAhead_blanks ⟨hkind, x, xs, hclosing, hx⟩ hblanks (o.closing ++ rest)
  rw [hmark, ← hc, List.append_nil] at hahead
  have hstep : Token.step m (.tag o b) c =
      ⟨[(c.past blanks (o.closing ++ rest)).token (.closing o.kind) o.closing],
        some (.text (trimAfter m o.kind false), (c.past blanks (o.closing ++ rest)).past o.closing rest)⟩ := by
    rw [Token.step, if_neg hkind, tagStep, hahead]
  refine ⟨_, _, .once hstep, ⟨rfl, ?_, rfl⟩, rfl⟩
  rw [hc]
  simp [Cursor.token, Cursor.past]

/-! ## Standard tags -/

def blockOpener : Opener := .ofPair .block Markup.standardBlock

/-- The openers of expressions and of statements in the standard markup. -/
inductive Standard : Opener → Prop
  | expr : Standard exprOpener
  | block : Standard blockOpener

namespace Standard

theorem mem (ho : Standard o) (h : m.openers = Markup.standard.openers) : o ∈ m.openers := by
  rw [h]
  cases ho with
  | expr => exact List.mem_cons_self
  | block => exact List.mem_cons_of_mem _ List.mem_cons_self

theorem tight (ho : Standard o) : o.Tight := by
  cases ho with
  | expr => exact ⟨by decide, '\x7d', ['\x7d'], rfl, rfl⟩
  | block => exact ⟨by decide, '%', ['\x7d'], rfl, rfl⟩

theorem opening (ho : Standard o) (h : m.openers = Markup.standard.openers) (trim : Trim)
    (hc : c.rest = o.mark ++ ' ' :: cs) :
    ∃ t d, Cuts m (.text trim) c [t] (.tag o false) d ∧ Found c [] (.opening o.kind) t d ∧
      d.rest = ' ' :: cs := by
  obtain ⟨place, chars, lineStart⟩ := c
  obtain rfl : chars = o.mark ++ ' ' :: cs := hc
  refine ⟨⟨.opening o.kind, String.ofList o.mark, ⟨place, place + 2⟩⟩, ⟨place + 2, ' ' :: cs, false⟩,
    .once ?_, ⟨rfl, by simp, rfl⟩, rfl⟩
  rw [step, textStep, h]
  -- what is stripped in front of the mark is empty anyway
  obtain ⟨_, _, _, _, _, stripBlocks, _⟩ := m
  cases ho <;> cases trim <;> cases stripBlocks <;> rfl

theorem passes (ho : Standard o) {x : Char} (hblank : Json.isBlank x = false)
    (hmark : o.closing.head? ≠ some x) (hminus : x ≠ '-') (cs : List Char) : o.Passes x cs := by
  obtain ⟨-, d, ds, hclosing, -⟩ := ho.tight
  rw [hclosing] at hmark
  refine ⟨hblank, ?_, fun h => absurd h hminus⟩
  rw [hclosing, dropMark?, if_neg fun h => hmark (congrArg some h)]

theorem closing_head (ho : Standard o) :
    ∃ d ds, o.closing = d :: ds ∧ Identifier.isPart d = false ∧ Identifier.isStart d = false := by
  cases ho with
  | expr => exact ⟨'\x7d', ['\x7d'], rfl, by decide, by decide⟩
  | block => exact ⟨'%', ['\x7d'], rfl, by decide, by decide⟩

theorem wordRest_eq (ho : Standard o) (hcs : ∀ c ∈ cs, Identifier.isPart c)
    (hrest : ∀ c ∈ rest.head?, Identifier.isPart c = false ∧ o.closing.head? ≠ some c) :
    wordRest o.closing (cs ++ rest) = (cs, rest) := by
  obtain ⟨d, ds, hclosing, hd, -⟩ := ho.closing_head
  rw [hclosing] at hrest ⊢
  induction cs with
  | nil =>
    cases rest with
    | nil => rfl
    | cons c rest =>
      have hpart := (hrest c rfl).1
      have hminus : c ≠ '-' := by
        rintro rfl
        exact absurd hpart (by decide)
      rw [List.nil_append, wordRest]
      simp [hminus, hpart]
  | cons c cs ih =>
    rw [List.forall_mem_cons] at hcs
    have hmark : dropMark? (d :: ds) (cs ++ rest) = none := by
      cases hnext : cs ++ rest with
      | nil => rfl
      | cons x xs =>
        have hx : d ≠ x := by
          rintro rfl
          cases cs with
          | nil =>
            obtain rfl : rest = d :: xs := hnext
            exact (hrest d rfl).2 rfl
          | cons c' cs =>
            obtain ⟨rfl, -⟩ := List.cons.inj hnext
            rw [(List.forall_mem_cons.mp hcs.2).1] at hd
            cases hd
        rw [dropMark?, if_neg hx]
    rw [List.cons_append, wordRest, hmark, ih hcs.2]
    simp [hcs.1]

theorem word (ho : Standard o) (hblanks : ∀ c ∈ blanks, Json.isBlank c) {x : Char}
    (hx : Identifier.isStart x) (hcs : ∀ c ∈ cs, Identifier.isPart c)
    (hrest : ∀ c ∈ rest.head?, Identifier.isPart c = false ∧ o.closing.head? ≠ some c)
    (hc : c.rest = blanks ++ x :: (cs ++ rest)) :
    ∃ t d, Cuts m (.tag o b) c [t] (.tag o true) d ∧ Found c blanks .word t d ∧
      t.text = String.ofList (x :: cs) ∧ d.rest = rest := by
  obtain ⟨d, ds, hclosing, -, hd⟩ := ho.closing_head
  have hne : ∀ y, Identifier.isStart y = false → x ≠ y := fun y => Identifier.ne_of_isStart hx
  have hblank : Json.isBlank x = false := by
    simp [Json.isBlank, hne ' ' (by decide), hne '\t' (by decide), hne '\n' (by decide),
      hne '\r' (by decide)]
  have hmark : o.closing.head? ≠ some x := by
    rw [hclosing]
    exact fun h => hne d hd (Option.some.inj h).symm
  have hpasses := ho.passes hblank hmark (hne '-' (by decide)) (cs ++ rest)
  have hlexeme : Token.lexeme o.closing b x (cs ++ rest) = ⟨.word, x :: cs, rest⟩ := by
    rw [lexeme_word _ _ hx, ho.wordRest_eq hcs hrest]
    rfl
  obtain ⟨t, e, hcuts, hfound, hrest'⟩ := Cuts.lexeme ho.tight hblanks hpasses hc hlexeme
  refine ⟨t, e, hcuts, hfound, ?_, hrest'⟩
  have htext := hfound.text
  rw [hc, hrest', ← List.cons_append] at htext
  rw [List.append_cancel_right (List.append_cancel_left htext), String.ofList_toList]

end Standard

end Token

end Stencil

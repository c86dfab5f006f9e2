import Stencil.Proofs.Placement.Cover
import Stencil.Proofs.Text.Identifier
/-!
# A word between the marks of a pair

Any two texts can be the marks around an expression. The opening one is always found. The closing one is
found right behind a word unless the word runs on into it, leaves its last `-` to it, or the blanks that
it begins with are passed over first.
-/

namespace Stencil

/-- The mark ends the text that it follows, and stands nowhere else in it. -/
def OnlyBehind (mark cs : List Char) : Prop :=
  ∀ before after, cs ++ mark = before ++ (mark ++ after) → after = []

variable {mark cs : List Char} {c : Char}

/-! ## Marks -/

theorem dropMark?_append (mark rest : List Char) : dropMark? mark (mark ++ rest) = some rest := by
  induction mark with
  | nil => cases rest <;> rfl
  | cons c mark ih => rw [List.cons_append, dropMark?, if_pos rfl, ih]

theorem dropMark?_self (mark : List Char) : dropMark? mark mark = some [] := by
  have hfound := dropMark?_append mark []
  rwa [List.append_nil] at hfound

theorem dropMark?_of_length_lt (h : cs.length < mark.length) : dropMark? mark cs = none := by
  rw [Option.eq_none_iff_forall_ne_some]
  intro rest hrest
  have hlength := congrArg List.length (dropMark?_eq_some hrest)
  rw [List.length_append] at hlength
  omega

namespace OnlyBehind

theorem tail (h : OnlyBehind mark (c :: cs)) : OnlyBehind mark cs := by
  intro before after hsplit
  apply h (c :: before) after
  rw [List.cons_append, hsplit, List.cons_append]

theorem dropMark?_eq_if (h : OnlyBehind mark cs) :
    dropMark? mark (cs ++ mark) = if cs = [] then some [] else none := by
  split
  · next hcs => rw [hcs, List.nil_append, dropMark?_self]
  · next hcs =>
    rw [Option.eq_none_iff_forall_ne_some]
    intro rest hrest
    have hsplit : cs ++ mark = mark ++ rest := dropMark?_eq_some hrest
    rw [h [] rest hsplit, List.append_nil] at hsplit
    exact hcs (List.append_left_eq_self.mp hsplit)

theorem iff_splitAtMark? (hmark : mark ≠ []) :
    OnlyBehind mark cs ↔ splitAtMark? mark (cs ++ mark) = some (cs, []) := by
  induction cs with
  | nil =>
    refine iff_of_true ?_ ?_
    · intro before after hsplit
      have hlength := congrArg List.length hsplit
      simp only [List.nil_append, List.length_append] at hlength
      exact List.length_eq_zero_iff.mp (by omega)
    · obtain ⟨d, ds, rfl⟩ := List.exists_cons_of_ne_nil hmark
      rw [List.nil_append, splitAtMark?, dropMark?_self]
  | cons c cs ih =>
    constructor
    · intro h
      have hnone := h.dropMark?_eq_if
      rw [if_neg (List.cons_ne_nil c cs), List.cons_append] at hnone
      rw [List.cons_append, splitAtMark?, hnone]
      simp [ih.mp h.tail]
    · intro h before after hsplit
      rw [List.cons_append, splitAtMark?] at h
      split at h
      · cases h
      · next hnone =>
        simp only [Option.map_eq_some_iff, Prod.mk.injEq, List.cons.injEq, true_and] at h
        obtain ⟨⟨_, _⟩, hfound, rfl, rfl⟩ := h
        cases before with
        | nil =>
          rw [← List.cons_append, hsplit, List.nil_append, dropMark?_append] at hnone
          cases hnone
        | cons b before => exact ih.mpr hfound before after (List.cons.inj hsplit).2

end OnlyBehind

theorem Markup.openers_of_expr {m : Markup} {p : MarkPair} (hexpr : m.expr = some p)
    (hblock : m.block = none) (hcomment : m.comment = none) (hline : m.line = none) :
    m.openers = [.ofPair .expr p] := by
  rw [openers, hexpr, hblock, hcomment, hline]
  rfl

namespace Token

/-! ## The word -/

/-- A word ends in front of the mark, unless its last `-` belongs to the mark, or the first character of
the mark to the word. -/
theorem wordRest_eq_iff {d : Char} {ds : List Char} (h : OnlyBehind (d :: ds) cs)
    (hcs : ∀ c ∈ cs, Identifier.isPart c) :
    wordRest (d :: ds) (cs ++ d :: ds) = (cs, d :: ds) ↔
      cs.getLast? ≠ some '-' ∧ Identifier.isPart d = false := by
  have hmark : wordRest (d :: ds) (d :: ds) = ([], d :: ds) ↔ Identifier.isPart d = false := by
    have hnone : dropMark? (d :: ds) ds = none := dropMark?_of_length_lt (Nat.lt_succ_self _)
    rw [wordRest, hnone]
    simp
  induction cs with
  | nil =>
    rw [List.nil_append, hmark]
    simp
  | cons c cs ih =>
    rw [List.forall_mem_cons] at hcs
    rw [List.cons_append, wordRest, h.tail.dropMark?_eq_if, if_pos hcs.1]
    cases cs with
    | nil =>
      by_cases hc : c = '-'
      · simp [hc]
      · rw [← hmark]
        simp [hc, Prod.ext_iff]
    | cons c' cs =>
      have htail := ih h.tail hcs.2
      rw [List.getLast?_cons_cons]
      refine Iff.trans ?_ htail
      simp [Prod.ext_iff]

theorem lexeme_word (mark : List Char) (afterOperand : Bool) (hc : Identifier.isStart c)
    (rest : List Char) : lexeme mark afterOperand c rest = .extend .word c (wordRest mark rest) := by
  have hquote := Identifier.ne_of_isStart (d := '"') hc (by decide)
  have hminus := Identifier.ne_of_isStart (d := '-') hc (by decide)
  have hdigit := Identifier.isDigit_of_isStart hc
  simp [lexeme, hquote, hminus, hdigit, hc]

theorem lookAhead_word (tag : TagKind) (hc : Identifier.isStart c) (h : OnlyBehind mark (c :: cs)) :
    lookAhead tag mark (c :: (cs ++ mark)) = ([], .lexeme c (cs ++ mark)) := by
  have hne : ∀ d, Identifier.isStart d = false → c ≠ d := fun d => Identifier.ne_of_isStart hc
  have hmark := h.dropMark?_eq_if
  rw [if_neg (List.cons_ne_nil c cs), List.cons_append] at hmark
  rw [lookAhead, hmark]
  simp [hne ' ' (by decide), hne '\t' (by decide), hne '\r' (by decide), hne '\n' (by decide),
    hne '-' (by decide)]

/-! ## The closing mark -/

def isPassed (c : Char) : Bool := c = ' ' || c = '\t' || c = '\r'

theorem lookAhead_mark (tag : TagKind) {d : Char} (hd : isPassed d = false) (ds : List Char) :
    lookAhead tag (d :: ds) (d :: ds) = ([], .mark false (d :: ds) []) := by
  unfold isPassed at hd
  rw [lookAhead, dropMark?_self, hd]
  rfl

theorem lookAhead_passed (tag : TagKind) (mark : List Char) (hc : isPassed c) (cs : List Char) :
    lookAhead tag mark (c :: cs) = (c :: (lookAhead tag mark cs).1, (lookAhead tag mark cs).2) := by
  unfold isPassed at hc
  rw [lookAhead, if_pos hc]

theorem steps_passed (m : Markup) (n : Nat) {o : Opener} (ho : o.kind ≠ .comment) (afterOperand : Bool)
    {k : Cursor} (hc : isPassed c) (hrest : k.rest = c :: cs) :
    ∀ t ∈ (steps m n (.tag o afterOperand) k).head?, k.place < t.span.start := by
  have hsize := c.utf8Size_pos
  cases n with
  | zero => rintro t ⟨⟩
  | succ n =>
    rw [steps, step, if_neg ho, tagStep, hrest, lookAhead_passed _ _ hc]
    generalize lookAhead o.kind o.closing cs = found
    obtain ⟨blanks, ahead⟩ := found
    cases ahead with
    | nothing => rintro t ⟨⟩
    | mark trim taken rest =>
      simp [Cursor.token, Cursor.past]
      omega
    | lexeme d ds =>
      simp [Cursor.token, Cursor.past]
      omega

/-! ## The steps -/

theorem Cursor.past_nil (k : Cursor) : k.past [] k.rest = k := by
  obtain ⟨place, rest, lineStart⟩ := k
  rfl

variable {m : Markup} {p : MarkPair}

theorem find?_opening (p : MarkPair) (lineStart : Bool) (rest : List Char) :
    Opening.find? [.ofPair .expr p] lineStart (p.opening.toList ++ rest) =
      some ⟨[], .ofPair .expr p, rest⟩ := by
  obtain ⟨b, bs, hopening⟩ : ∃ b bs, p.opening.toList = b :: bs :=
    List.exists_cons_of_ne_nil (mt String.toList_eq_nil_iff.mp p.opening_ne)
  have hat : (Opener.ofPair .expr p).at? lineStart (p.opening.toList ++ rest) = some rest :=
    dropMark?_append p.opening.toList rest
  rw [hopening, List.cons_append] at hat ⊢
  rw [Opening.find?, List.findSome?_cons, hat]
  rfl

theorem openingSign_word (m : Markup) (hc : Identifier.isStart c) (rest : List Char) :
    openingSign m .expr (c :: rest) = ([], false) := by
  have hminus := Identifier.ne_of_isStart (d := '-') hc (by decide)
  have hplus := Identifier.ne_of_isStart (d := '+') hc (by decide)
  unfold openingSign
  split
  · next heq =>
    cases heq
    exact absurd rfl hminus
  · next heq =>
    cases heq
    exact absurd rfl hplus
  · rfl

theorem step_opening_mark (hopeners : m.openers = [.ofPair .expr p]) (hc : Identifier.isStart c)
    {k : Cursor} {rest : List Char} (hrest : k.rest = p.opening.toList ++ c :: rest) :
    step m (.text .nothing) k = ⟨[k.token (.opening .expr) p.opening.toList],
      some (.tag (.ofPair .expr p) false, k.past p.opening.toList (c :: rest))⟩ := by
  have hne : k.rest.isEmpty = false := by simp [hrest]
  have hfind := find?_opening p k.lineStart (c :: rest)
  have hsign := openingSign_word m hc rest
  have hkind : (Opener.ofPair .expr p).kind = .expr := rfl
  have hmark : (Opener.ofPair .expr p).mark = p.opening.toList := rfl
  rw [← hrest] at hfind
  rw [step, textStep, Trim.split]
  dsimp only
  rw [Cursor.past_nil, hne, hopeners, hfind]
  dsimp only
  rw [hkind, hsign, hmark]
  simp [← hrest, Cursor.past_nil]

theorem step_word (m : Markup) (hc : Identifier.isStart c) (h : OnlyBehind p.closing.toList (c :: cs))
    {k : Cursor} (hrest : k.rest = c :: (cs ++ p.closing.toList)) {taken rest : List Char}
    (hword : wordRest p.closing.toList (cs ++ p.closing.toList) = (taken, rest)) :
    step m (.tag (.ofPair .expr p) false) k = ⟨[k.token .word (c :: taken)],
      some (.tag (.ofPair .expr p) true, k.past (c :: taken) rest)⟩ := by
  have hkind : (Opener.ofPair .expr p).kind = .expr := rfl
  have hclosing : (Opener.ofPair .expr p).closing = p.closing.toList := rfl
  rw [step, hkind, if_neg (by decide), tagStep, hkind, hclosing, hrest, lookAhead_word _ hc h]
  dsimp only
  rw [← hrest, Cursor.past_nil, lexeme_word _ _ hc, hword]
  rfl

theorem step_closing_mark (m : Markup) {d : Char} {ds : List Char} (hclosing : p.closing.toList = d :: ds)
    (hd : isPassed d = false) (afterOperand : Bool) {k : Cursor} (hrest : k.rest = d :: ds) :
    step m (.tag (.ofPair .expr p) afterOperand) k = ⟨[k.token (.closing .expr) (d :: ds)],
      some (.text (trimAfter m .expr false), k.past (d :: ds) [])⟩ := by
  have hkind : (Opener.ofPair .expr p).kind = .expr := rfl
  have hmark : (Opener.ofPair .expr p).closing = d :: ds := hclosing
  rw [step, hkind, if_neg (by decide), tagStep, hkind, hmark, hrest, lookAhead_mark _ hd]
  dsimp only
  rw [List.append_nil, ← hrest, Cursor.past_nil]

theorem scan_word (hopeners : m.openers = [.ofPair .expr p]) {x : String} (hx : x.toList = c :: cs)
    (hc : Identifier.isStart c) (h : OnlyBehind p.closing.toList (c :: cs)) {taken rest : List Char}
    (hword : wordRest p.closing.toList (cs ++ p.closing.toList) = (taken, rest)) :
    ∃ n k, k.place = byteSize p.opening.toList + byteSize (c :: taken) ∧ k.rest = rest ∧
      scan m (p.opening ++ x ++ p.closing) =
        [⟨.opening .expr, p.opening, ⟨0, byteSize p.opening.toList⟩⟩,
          ⟨.word, String.ofList (c :: taken), ⟨byteSize p.opening.toList, k.place⟩⟩] ++
        steps m (n + 1) (.tag (.ofPair .expr p) true) k := by
  have hsource : (p.opening ++ x ++ p.closing).toList =
      p.opening.toList ++ c :: (cs ++ p.closing.toList) := by
    simp [hx]
  rw [scan]
  generalize (p.opening ++ x ++ p.closing).toList = source at hsource ⊢
  have hfirst := step_opening_mark hopeners hc (k := .start source) hsource
  generalize hk : (Cursor.start source).past p.opening.toList (c :: (cs ++ p.closing.toList)) = k
    at hfirst
  have hplace : k.place = byteSize p.opening.toList := by
    rw [← hk]
    exact Nat.zero_add _
  have hrest : k.rest = c :: (cs ++ p.closing.toList) := by rw [← hk, Cursor.past]
  have hsecond := step_word m hc h hrest hword
  obtain ⟨n, hn⟩ : ∃ n, source.length = n + 2 := by
    have hopening := List.length_pos_iff.mpr (mt String.toList_eq_nil_iff.mp p.opening_ne)
    refine ⟨source.length - 2, ?_⟩
    rw [hsource, List.length_append, List.length_cons]
    omega
  refine ⟨n, k.past (c :: taken) rest, congrArg (· + byteSize (c :: taken)) hplace, rfl, ?_⟩
  rw [hn, steps, hfirst]
  dsimp only
  rw [steps, hsecond]
  dsimp only
  rw [← List.append_assoc]
  refine congrArg₂ _ ?_ rfl
  simp [Cursor.token, Cursor.past, Cursor.start, hplace]

def pairTokens (p : MarkPair) (x : String) : List Token :=
  let before := p.opening.utf8ByteSize
  let behind := before + x.utf8ByteSize
  [⟨.opening .expr, p.opening, ⟨0, before⟩⟩, ⟨.word, x, ⟨before, behind⟩⟩,
    ⟨.closing .expr, p.closing, ⟨behind, behind + p.closing.utf8ByteSize⟩⟩]

/-- A word between the marks of a pair is read as these tokens if and only if it does not end with a `-`
and the closing mark begins neither with a blank nor with a character that continues a word. -/
theorem reader_pair {m : Markup} {p : MarkPair} (hexpr : m.expr = some p) (hblock : m.block = none)
    (hcomment : m.comment = none) (hline : m.line = none) {x : String} {c : Char} {cs : List Char}
    (hx : x.toList = c :: cs) (hc : Identifier.isStart c) (hcs : ∀ d ∈ cs, Identifier.isPart d)
    (h : OnlyBehind p.closing.toList x.toList) :
    (∀ n, Reader.nth m n (.start (p.opening ++ x ++ p.closing)) =
      (pairTokens p x)[n]?.getD (.atEnd (p.opening ++ x ++ p.closing).utf8ByteSize)) ↔
    x.toList.getLast? ≠ some '-' ∧
      ∀ d ∈ p.closing.toList.head?, Identifier.isPart d = false ∧ d ≠ ' ' ∧ d ≠ '\t' ∧ d ≠ '\r' := by
  have hopeners := Markup.openers_of_expr hexpr hblock hcomment hline
  obtain ⟨d, ds, hclosing⟩ : ∃ d ds, p.closing.toList = d :: ds :=
    List.exists_cons_of_ne_nil (mt String.toList_eq_nil_iff.mp p.closing_ne)
  rw [hx] at h ⊢
  have hfound := wordRest_append p.closing.toList (cs ++ p.closing.toList)
  generalize hword : wordRest p.closing.toList (cs ++ p.closing.toList) = found at hfound
  obtain ⟨taken, rest⟩ := found
  obtain ⟨n, k, hplace, hrest, hscan⟩ := scan_word hopeners hx hc h hword
  have hreads := (Reader.start_gives m (p.opening ++ x ++ p.closing)).nth
  rw [hscan] at hreads
  simp only [pairTokens, ← byteSize_toList, hreads]
  have hpassed : isPassed d = false ↔ d ≠ ' ' ∧ d ≠ '\t' ∧ d ≠ '\r' := by simp [isPassed, and_assoc]
  have hlast : (c :: cs).getLast? ≠ some '-' ↔ cs.getLast? ≠ some '-' := by
    cases cs with
    | nil => simpa using Identifier.ne_of_isStart hc (by decide)
    | cons c' cs => rw [List.getLast?_cons_cons]
  rw [hclosing] at h hword hfound ⊢
  rw [hlast]
  simp only [List.head?_cons, Option.mem_some_iff, forall_eq', ← hpassed]
  constructor
  · intro hall
    have htaken : String.ofList (c :: taken) = x := congrArg Token.text (hall 1)
    have hthird := hall 2
    rw [← String.toList_inj, String.toList_ofList, hx, List.cons.injEq] at htaken
    obtain rfl := htaken.2
    obtain rfl := List.append_cancel_left hfound
    obtain ⟨hlast, hpart⟩ := (wordRest_eq_iff h.tail hcs).mp hword
    refine ⟨hlast, hpart, Bool.eq_false_iff.mpr fun hd => ?_⟩
    -- With a blank passed over, no token begins where the closing mark does.
    have hbehind := steps_passed m (n + 1) (o := .ofPair .expr p) nofun true hd hrest
    rw [List.head?_eq_getElem?] at hbehind
    change (steps m (n + 1) _ k)[0]?.getD _ = _ at hthird
    cases hnext : (steps m (n + 1) (.tag (.ofPair .expr p) true) k)[0]? with
    | none =>
      rw [hnext] at hthird
      cases hthird
    | some t =>
      have hstart := hbehind t hnext
      rw [hnext] at hthird
      rw [show t = _ from hthird, hplace, hx] at hstart
      exact absurd hstart (Nat.lt_irrefl _)
  · rintro ⟨hlast, hpart, hd⟩
    rw [(wordRest_eq_iff h.tail hcs).mpr ⟨hlast, hpart⟩] at hword
    obtain ⟨rfl, rfl⟩ := Prod.mk.inj hword
    have hsteps : steps m (n + 1) (.tag (.ofPair .expr p) true) k =
        [⟨.closing .expr, p.closing, ⟨k.place, k.place + byteSize (d :: ds)⟩⟩] := by
      rw [steps, step_closing_mark m hclosing hd true hrest]
      dsimp only
      rw [Reader.steps_of_rest_nil (show Mode.Ready m (.text _) from trivial) rfl, ← hclosing,
        Cursor.token, String.ofList_toList]
      rfl
    rw [hsteps, hplace, ← hx, String.ofList_toList]
    exact fun n => rfl

def lined : Markup := { expr := some ⟨"<", "\n>", by decide, by decide⟩ }

theorem reader_pair_lined :
    OnlyBehind "\n>".toList "a-b".toList ∧
      ∀ n, Reader.nth lined n (.start "<a-b\n>") =
        [⟨.opening .expr, "<", ⟨0, 1⟩⟩, ⟨.word, "a-b", ⟨1, 4⟩⟩,
          (⟨.closing .expr, "\n>", ⟨4, 6⟩⟩ : Token)][n]?.getD (.atEnd 6) :=
  have h : OnlyBehind "\n>".toList "a-b".toList := (OnlyBehind.iff_splitAtMark? (by decide)).mpr rfl
  have hparts : ∀ d ∈ ['-', 'b'], Identifier.isPart d := List.all_eq_true.mp rfl
  have hends : "a-b".toList.getLast? ≠ some '-' ∧ ∀ d ∈ "\n>".toList.head?,
      Identifier.isPart d = false ∧ d ≠ ' ' ∧ d ≠ '\t' ∧ d ≠ '\r' := by
    refine ⟨by decide, ?_⟩
    rintro d ⟨⟩
    decide
  ⟨h, (reader_pair (m := lined) rfl rfl rfl rfl rfl (by decide) hparts h).mpr hends⟩

def lettered : Markup := { expr := some ⟨"<", "end", by decide, by decide⟩ }

/-- The closing mark becomes a part of the word in front of it. -/
theorem reader_lettered :
    Identifier.isStart 'a' ∧ OnlyBehind "end".toList "a".toList ∧
      Reader.nth lettered 1 (.start "<aend") = ⟨.word, "aend", ⟨1, 5⟩⟩ ∧
      Reader.nth lettered 2 (.start "<aend") = .atEnd 5 :=
  ⟨by decide, (OnlyBehind.iff_splitAtMark? (by decide)).mpr rfl, rfl, rfl⟩

end Token

end Stencil

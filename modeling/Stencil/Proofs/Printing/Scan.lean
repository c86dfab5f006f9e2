import Stencil.Proofs.Printing.Term
import Stencil.Proofs.Text.Identifier
/-!
# Scanning what was written

In front of a blank each symbol of a term is a token of its own, whatever stands before it. So the tokens
of the source are the symbols that were written.
-/

namespace Stencil

open Token

/-- The characters are one lexeme in front of a blank, and nothing that would end the tag. -/
structure Symbol.Stands (y : Symbol) (c : Char) (cs : List Char) : Prop where
  text : y.text.toList = c :: cs
  notBlank : c ≠ ' ' ∧ c ≠ '\t' ∧ c ≠ '\r' ∧ c ≠ '\n'
  notClosing : c ≠ '\x7d'
  minus : c = '-' → cs = []
  lexeme : ∀ afterOperand rest, Token.lexeme ['\x7d', '\x7d'] afterOperand c (cs ++ ' ' :: rest) =
    ⟨y.kind, c :: cs, ' ' :: rest⟩

def Symbol.Standing (y : Symbol) : Prop := ∃ c cs, y.Stands c cs

/-! ## Words -/

theorem wordRest_blank {cs : List Char} (h : ∀ c ∈ cs, Identifier.isPart c) (rest : List Char) :
    wordRest ['\x7d', '\x7d'] (cs ++ ' ' :: rest) = (cs, ' ' :: rest) := by
  induction cs with
  | nil => rfl
  | cons c cs ih =>
    rw [List.forall_mem_cons] at h
    -- A word does not go on with a brace, so no sign in it is that of a closing mark.
    have hmark : dropMark? ['\x7d', '\x7d'] (cs ++ ' ' :: rest) = none := by
      cases cs with
      | nil => rfl
      | cons d cs =>
        have hd : '\x7d' ≠ d := by
          rintro rfl
          exact absurd (h.2 _ List.mem_cons_self) (by decide)
        simp [dropMark?, hd]
    rw [List.cons_append, wordRest, hmark, ih h.2]
    simp [h.1]

theorem word_standing {text : String} {c : Char} {cs : List Char} (htext : text.toList = c :: cs)
    (hc : Identifier.isStart c) (hcs : ∀ d ∈ cs, Identifier.isPart d) :
    (⟨.word, text⟩ : Symbol).Standing := by
  have hne : ∀ d, Identifier.isStart d = false → c ≠ d := fun d => Identifier.ne_of_isStart hc
  have hdigit := Identifier.isDigit_of_isStart hc
  refine ⟨c, cs, htext, ?_, hne _ (by decide), fun h => absurd h (hne _ (by decide)), ?_⟩
  · exact ⟨hne _ (by decide), hne _ (by decide), hne _ (by decide), hne _ (by decide)⟩
  · intro afterOperand rest
    simp [lexeme, hne '"' (by decide), hne '-' (by decide), hdigit, hc, wordRest_blank hcs,
      Lexeme.extend]

/-! ## Literals -/

theorem numberRest_blank {last : Char} {cs : List Char} (h : numberRest last cs = (cs, []))
    (rest : List Char) : numberRest last (cs ++ ' ' :: rest) = (cs, ' ' :: rest) := by
  induction cs generalizing last with
  | nil => cases last; rfl
  | cons c cs ih =>
    rw [numberRest] at h
    split at h
    · next hc =>
      have hcs : numberRest c cs = (cs, []) := by
        rw [Prod.ext_iff] at h
        simp only [List.cons.injEq, true_and] at h
        exact Prod.ext h.1 h.2
      rw [List.cons_append, numberRest, if_pos hc, ih hcs]
    · cases h

theorem literal_standing (l : Literal) : (⟨l.kind, l.text⟩ : Symbol).Standing := by
  have hliteral := l.isLiteral
  generalize l.kind = kind, htext : l.text.toList = chars at hliteral ⊢
  cases hliteral with
  | @number c cs hc hcs =>
    have hne : ∀ d, d.isDigit = false → c ≠ d := by
      rintro d hd rfl
      rw [hc] at hd
      cases hd
    refine ⟨c, cs, htext, ?_, hne _ (by decide), fun h => absurd h (hne _ (by decide)), ?_⟩
    · exact ⟨hne _ (by decide), hne _ (by decide), hne _ (by decide), hne _ (by decide)⟩
    · intro afterOperand rest
      simp [lexeme, hne '"' (by decide), hc, numberRest_blank hcs, Lexeme.extend]
  | @string cs hcs =>
    refine ⟨'"', cs, htext, by decide, by decide, fun h => absurd h (by decide), ?_⟩
    intro afterOperand rest
    simp [lexeme, hcs, Lexeme.extend]

/-! ## Signs -/

theorem sign_standing {y : Symbol} (c : Char) (cs : List Char) (htext : y.text.toList = c :: cs)
    (hc : (c ≠ ' ' ∧ c ≠ '\t' ∧ c ≠ '\r' ∧ c ≠ '\n') ∧ c ≠ '\x7d' ∧ (c = '-' → cs = []))
    (h : ∀ afterOperand rest, Token.lexeme ['\x7d', '\x7d'] afterOperand c (cs ++ ' ' :: rest) =
      ⟨y.kind, c :: cs, ' ' :: rest⟩) : y.Standing :=
  ⟨c, cs, htext, hc.1, hc.2.1, hc.2.2, h⟩

theorem minus_standing : (⟨.minus, "-"⟩ : Symbol).Standing :=
  sign_standing '-' [] rfl (by decide) fun afterOperand _ => by cases afterOperand <;> rfl

theorem operator_standing (op : Operator) : op.symbol.Standing := by
  cases op with
  | or => exact sign_standing 'o' ['r'] rfl (by decide) fun _ _ => rfl
  | and => exact sign_standing 'a' ['n', 'd'] rfl (by decide) fun _ _ => rfl
  | inside => exact sign_standing 'i' ['n'] rfl (by decide) fun _ _ => rfl
  | relation r =>
    cases r with
    | eq => exact sign_standing '=' ['='] rfl (by decide) fun _ _ => rfl
    | ne => exact sign_standing '!' ['='] rfl (by decide) fun _ _ => rfl
    | gt => exact sign_standing '>' [] rfl (by decide) fun _ _ => rfl
    | ge => exact sign_standing '>' ['='] rfl (by decide) fun _ _ => rfl
    | lt => exact sign_standing '<' [] rfl (by decide) fun _ _ => rfl
    | le => exact sign_standing '<' ['='] rfl (by decide) fun _ _ => rfl
  | arith a =>
    cases a with
    | add => exact sign_standing '+' [] rfl (by decide) fun _ _ => rfl
    | sub => exact minus_standing
    | mul => exact sign_standing '*' [] rfl (by decide) fun _ _ => rfl
    | div => exact sign_standing '/' [] rfl (by decide) fun _ _ => rfl
    | rem => exact sign_standing '%' [] rfl (by decide) fun _ _ => rfl
    | pow => exact sign_standing '^' [] rfl (by decide) fun _ _ => rfl

theorem leftParen_standing : (⟨.leftParen, "("⟩ : Symbol).Standing :=
  sign_standing '(' [] rfl (by decide) fun _ _ => rfl

theorem rightParen_standing : (⟨.rightParen, ")"⟩ : Symbol).Standing :=
  sign_standing ')' [] rfl (by decide) fun _ _ => rfl

/-! ## Terms -/

theorem enclose_standing {s : Style} {rank : Rank} {t : Term} {symbols : List Symbol}
    (h : ∀ y ∈ symbols, y.Standing) : ∀ y ∈ s.enclose rank t symbols, y.Standing := by
  unfold Style.enclose
  split
  · simp only [List.forall_mem_cons, List.forall_mem_append]
    exact ⟨leftParen_standing, h, rightParen_standing, nofun⟩
  · exact h

mutual

theorem Term.bare_standing (s : Style) : ∀ t : Term, ∀ y ∈ t.bare s, y.Standing
  | .name n => by
    obtain ⟨c, cs, htext, hc, hcs⟩ := n.isWord
    rw [bare, List.forall_mem_singleton]
    exact word_standing htext hc hcs
  | .literal l => by
    rw [bare, List.forall_mem_singleton]
    exact literal_standing l
  | .call n args => by
    obtain ⟨c, cs, htext, hc, hcs⟩ := n.isWord
    rw [bare]
    simp only [List.forall_mem_cons, List.forall_mem_append]
    exact ⟨word_standing htext hc hcs, leftParen_standing, Term.bareArgs_standing s args,
      rightParen_standing, nofun⟩
  | .negative t => by
    rw [bare, List.forall_mem_cons]
    exact ⟨minus_standing, enclose_standing (Term.bare_standing s t)⟩
  | .not t => by
    rw [bare, List.forall_mem_cons]
    exact ⟨sign_standing 'n' ['o', 't'] rfl (by decide) fun _ _ => rfl,
      enclose_standing (Term.bare_standing s t)⟩
  | .binary op left right => by
    rw [bare, List.forall_mem_append, List.forall_mem_cons]
    exact ⟨enclose_standing (Term.bare_standing s left), operator_standing op,
      enclose_standing (Term.bare_standing s right)⟩

theorem Term.bareArgs_standing (s : Style) : ∀ ts : List Term, ∀ y ∈ bareArgs s ts, y.Standing
  | [] => by
    rw [bareArgs]
    exact nofun
  | [t] => by
    rw [bareArgs]
    exact enclose_standing (Term.bare_standing s t)
  | t :: t' :: rest => by
    rw [Term.bareArgs_cons, List.forall_mem_append, List.forall_mem_cons]
    exact ⟨enclose_standing (Term.bare_standing s t),
      sign_standing ',' [] rfl (by decide) fun _ _ => rfl, Term.bareArgs_standing s (t' :: rest)⟩

end

/-! ## The source of a term -/

namespace Token

def exprOpener : Opener := .ofPair .expr Markup.standardExpr

theorem exprOpener_closing : exprOpener.closing = ['\x7d', '\x7d'] := rfl

variable {m : Markup} {n : Nat}

theorem lookAhead_symbol (rest : List Char) {y : Symbol} {c : Char} {cs : List Char}
    (h : y.Stands c cs) :
    lookAhead .expr exprOpener.closing (' ' :: (c :: (cs ++ ' ' :: rest))) =
      ([' '], .lexeme c (cs ++ ' ' :: rest)) := by
  have hmark : dropMark? ['\x7d', '\x7d'] (c :: (cs ++ ' ' :: rest)) = none := by
    rw [dropMark?, if_neg (Ne.symm h.notClosing)]
  have htrim : c = '-' → dropMark? ['\x7d', '\x7d'] (cs ++ ' ' :: rest) = none := by
    intro hc
    rw [h.minus hc]
    rfl
  obtain ⟨hspace, htab, hreturn, hline⟩ := h.notBlank
  by_cases hc : c = '-'
  · simp [lookAhead, exprOpener_closing, hmark, htrim hc, hspace, htab, hreturn, hline]
  · simp [lookAhead, exprOpener_closing, hmark, hc, hspace, htab, hreturn, hline]

theorem step_symbol (m : Markup) (afterOperand : Bool) (place : Nat) (rest : List Char)
    (lineStart : Bool) {y : Symbol} (h : y.Standing) : ∃ t c, t.symbol = y ∧ c.rest = ' ' :: rest ∧
    step m (.tag exprOpener afterOperand) ⟨place, ' ' :: (y.text.toList ++ ' ' :: rest), lineStart⟩ =
      ⟨[t], some (.tag exprOpener y.kind.endsOperand, c)⟩ := by
  obtain ⟨c, cs, h⟩ := h
  have hahead := lookAhead_symbol rest h
  have hkind : exprOpener.kind = .expr := rfl
  rw [exprOpener_closing] at hahead
  rw [step, hkind, if_neg (by decide), tagStep, h.text, List.cons_append]
  simp only [hkind, exprOpener_closing, hahead, h.lexeme]
  refine ⟨_, _, ?_, rfl, rfl⟩
  show Symbol.mk y.kind (String.ofList (c :: cs)) = y
  rw [← h.text, String.ofList_toList]

def spaced (ys : List Symbol) : List Char := ys.flatMap fun y => ' ' :: y.text.toList

theorem spaced_closing (ys : List Symbol) :
    ∃ rest, spaced ys ++ [' ', '\x7d', '\x7d'] = ' ' :: rest := by
  cases ys with
  | nil => exact ⟨_, rfl⟩
  | cons y ys => exact ⟨_, rfl⟩

theorem steps_nothing (m : Markup) (n : Nat) (trim : Trim) {c : Cursor} (hc : c.rest = []) :
    steps m n (.text trim) c = [] := by
  cases n with
  | zero => rfl
  | succ n =>
    have hsplit : trim.split [] = ([], []) := by cases trim <;> rfl
    rw [steps, step, textStep, hc, hsplit]
    rfl

theorem steps_symbols (m : Markup) (afterOperand : Bool) {ys : List Symbol}
    (h : ∀ y ∈ ys, y.Standing) (hn : ys.length + 1 ≤ n) (c : Cursor)
    (hc : c.rest = spaced ys ++ [' ', '\x7d', '\x7d']) : ∃ ts u,
    steps m n (.tag exprOpener afterOperand) c = ts ++ [u] ∧ ts.map symbol = ys ∧
      u.kind = .closing .expr := by
  induction ys generalizing n afterOperand c with
  | nil =>
    obtain ⟨n, rfl⟩ : ∃ k, n = k + 1 := ⟨n - 1, by simp only [List.length_nil] at hn; omega⟩
    obtain ⟨place, chars, lineStart⟩ := c
    obtain rfl : chars = [' ', '\x7d', '\x7d'] := hc
    have hstep : step m (.tag exprOpener afterOperand) ⟨place, [' ', '\x7d', '\x7d'], lineStart⟩ =
        ⟨[⟨.closing .expr, "\x7d\x7d", ⟨place + 1, place + 3⟩⟩],
          some (.text (trimAfter m .expr false), ⟨place + 3, [], false⟩)⟩ := rfl
    refine ⟨[], ⟨.closing .expr, "\x7d\x7d", ⟨place + 1, place + 3⟩⟩, ?_, rfl, rfl⟩
    rw [steps, hstep]
    dsimp only
    rw [steps_nothing m n _ rfl]
    rfl
  | cons y ys ih =>
    rw [List.forall_mem_cons] at h
    rw [List.length_cons] at hn
    obtain ⟨n, rfl⟩ : ∃ k, n = k + 1 := ⟨n - 1, by omega⟩
    obtain ⟨rest, hrest⟩ := spaced_closing ys
    obtain ⟨place, chars, lineStart⟩ := c
    obtain rfl : chars = ' ' :: (y.text.toList ++ ' ' :: rest) := by
      rw [← hrest, ← List.append_assoc, ← List.cons_append]
      exact hc
    obtain ⟨t, d, ht, hd, hstep⟩ := step_symbol m afterOperand place rest lineStart h.1
    obtain ⟨ts, u, hts, hsymbols, hu⟩ := ih y.kind.endsOperand h.2 (by omega : ys.length + 1 ≤ n) d
      (hd.trans hrest.symm)
    refine ⟨t :: ts, u, ?_, by rw [List.map_cons, ht, hsymbols], hu⟩
    rw [steps, hstep]
    dsimp only
    rw [hts]
    rfl

theorem length_le_spaced (ys : List Symbol) : ys.length ≤ (spaced ys).length := by
  induction ys with
  | nil => exact Nat.le_refl 0
  | cons y ys ih =>
    simp only [spaced, List.flatMap_cons, List.length_cons, List.length_append] at ih ⊢
    omega

theorem step_opening (h : m.openers = Markup.standard.openers) (cs : List Char) :
    step m (.text .nothing) (.start ('\x7b' :: '\x7b' :: ' ' :: cs)) =
      ⟨[⟨.opening .expr, "\x7b\x7b", ⟨0, 2⟩⟩],
        some (.tag exprOpener false, ⟨2, ' ' :: cs, false⟩)⟩ := by
  rw [step, textStep, h]
  rfl

theorem scan_source (h : m.openers = Markup.standard.openers) (s : Style) (t : Term) :
    ∃ u us v, scan m (t.source s) = u :: (us ++ [v]) ∧ u.kind = .opening .expr ∧
      us.map symbol = t.symbols s .either ∧ v.kind = .closing .expr := by
  have hstanding : ∀ y ∈ t.symbols s .either, y.Standing := enclose_standing (t.bare_standing s)
  obtain ⟨rest, hrest⟩ := spaced_closing (t.symbols s .either)
  have hchars : (t.source s).toList = '\x7b' :: '\x7b' :: ' ' :: rest := by
    rw [← hrest, Term.source, String.toList_ofList]
    simp [spaced]
  have hlength : (t.symbols s .either).length + 2 ≤ rest.length := by
    have hspaced := length_le_spaced (t.symbols s .either)
    have hrest := congrArg List.length hrest
    simp only [List.length_append, List.length_cons, List.length_nil] at hrest
    omega
  obtain ⟨us, v, hus, hsymbols, hv⟩ := steps_symbols m false hstanding
    (by omega : (t.symbols s .either).length + 1 ≤ rest.length + 3) ⟨2, ' ' :: rest, false⟩ hrest.symm
  refine ⟨⟨.opening .expr, "\x7b\x7b", ⟨0, 2⟩⟩, us, v, ?_, rfl, hsymbols, hv⟩
  rw [scan, hchars]
  simp only [List.length_cons]
  rw [steps, step_opening h]
  dsimp only
  rw [hus]
  rfl

end Token

end Stencil

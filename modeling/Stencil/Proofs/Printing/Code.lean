import Stencil.Proofs.Compiling.Layout
import Stencil.Proofs.Placement.Tree
import Stencil.Proofs.Printing.Term
import Stencil.Template
/-!
# Code up to places

Instructions name their names and texts by places in a source. Spelled out they do not depend on the
places any more. Trees that differ only by their places have the same code, spelled out.
-/

namespace Stencil

/-! ## Spelling out -/

/-- Something without its places, and the texts that stand at them. -/
structure Spelled (α : Type) where
  bare : α
  texts : List (Option (List Char))

def Operand.spelled (source : List Char) : Operand → Spelled Operand
  | .name place => ⟨.name (.point 0), [slice? source place]⟩
  | o => ⟨o, []⟩

def Binder.places : Binder Span → List Span
  | .item name => [name]
  | .pair key value => [key, value]

def Op.spelled (source : List Char) : Op → Spelled Op
  | .text place => ⟨.text (.point 0), [slice? source place]⟩
  | .call name args => ⟨.call (.point 0) args, [slice? source name]⟩
  | .loopStart binder stop =>
    ⟨.loopStart (binder.map fun _ => .point 0) stop, binder.places.map (slice? source)⟩
  | op => ⟨op, []⟩

def Instr.spelled (source : List Char) (i : Instr) : Spelled Op × Spelled Operand :=
  (i.op.spelled source, i.operand.spelled source)

def Code.spelled (source : List Char) (l : Code) : List (Spelled Op × Spelled Operand) :=
  l.map (Instr.spelled source)

theorem Code.length_eq_of_spelled {source source' : List Char} {l l' : Code}
    (h : l.spelled source = l'.spelled source') : l.length = l'.length := by
  simpa [spelled] using congrArg List.length h

theorem Code.spelled_append (source : List Char) (l l' : Code) :
    (l ++ l').spelled source = l.spelled source ++ l'.spelled source := by
  simp [spelled]

theorem Code.spelled_cons (source : List Char) (i : Instr) (l : Code) :
    Code.spelled source (i :: l) = i.spelled source :: l.spelled source := rfl

/-! ## Expressions -/

namespace Expr

variable {source source' : List Char} {folding : Bool} {e e' : Expr}

theorem word_spelled {w w' : Word} (h : w.text = w'.text) (hw : w.Placed source)
    (hw' : w'.Placed source') : slice? source w.span = slice? source' w'.span := by
  rw [hw.slice, hw'.slice, h]

theorem operands_cases (h : e.erase = e'.erase) (he : e.Placed source) (he' : e'.Placed source') :
    (e.operand? = none ∧ e'.operand? = none) ∨
    ∃ o o', e.operand? = some o ∧ e'.operand? = some o' ∧ o.spelled source = o'.spelled source' := by
  cases e <;> cases e' <;> simp only [erase, literal.injEq, name.injEq, Word.mk.injEq, reduceCtorEq] at h
  · obtain ⟨rfl, -⟩ := h
    exact .inr ⟨_, _, rfl, rfl, rfl⟩
  · refine .inr ⟨_, _, rfl, rfl, ?_⟩
    rw [Operand.spelled, Operand.spelled, word_spelled h.1 he he']
  all_goals exact .inl ⟨rfl, rfl⟩

theorem folded_cases (folding : Bool) (h : e.erase = e'.erase) (he : e.Placed source)
    (he' : e'.Placed source') :
    (e.folded? folding = none ∧ e'.folded? folding = none) ∨
    ∃ o o', e.folded? folding = some o ∧ e'.folded? folding = some o' ∧
      o.spelled source = o'.spelled source' := by
  cases folding with
  | true => exact operands_cases h he he'
  | false => exact .inl ⟨rfl, rfl⟩

theorem shortcut_spelled (op : Nat → Op) (hop : ∀ n, (op n).spelled source = (op n).spelled source')
    (here : Nat) {a a' : Code} {second second' : Nat → Code} (span span' : Span)
    (ha : a.spelled source = a'.spelled source')
    (hsecond : ∀ n, (second n).spelled source = (second' n).spelled source') :
    (shortcut op here a second span).spelled source =
      (shortcut op here a' second' span').spelled source' := by
  have hlength := Code.length_eq_of_spelled ha
  have hsecond' := hsecond (here + a.length + 1)
  simp only [shortcut, ← hlength, ← Code.length_eq_of_spelled hsecond', Code.spelled_append,
    Code.spelled_cons, ha, hsecond']
  simp only [Instr.spelled, Instr.plain, hop]
  rfl

theorem feed_of_code (here : Nat) (h : e.erase = e'.erase) (he : e.Placed source)
    (he' : e'.Placed source')
    (hcode : (e.code folding here).spelled source = (e'.code folding here).spelled source') :
    (e.feed folding here).1.spelled source = (e'.feed folding here).1.spelled source' ∧
      (e.feed folding here).2.spelled source = (e'.feed folding here).2.spelled source' := by
  unfold feed
  rcases folded_cases folding h he he' with ⟨hnone, hnone'⟩ | ⟨o, o', ho, ho', hspelled⟩
  · rw [hnone, hnone']
    exact ⟨hcode, rfl⟩
  · rw [ho, ho']
    exact ⟨rfl, hspelled⟩

mutual

/-- Trees that differ only by their places have the same code, spelled out. -/
theorem code_spelled (folding : Bool) (here : Nat) : ∀ {e e' : Expr}, e.erase = e'.erase →
    e.Placed source → e'.Placed source' →
      (e.code folding here).spelled source = (e'.code folding here).spelled source'
  | .literal v span, e', h, _, _ => by
    cases e' <;> simp only [erase, literal.injEq, reduceCtorEq] at h
    obtain ⟨rfl, -⟩ := h
    rfl
  | .name word, e', h, he, he' => by
    cases e' <;> simp only [erase, name.injEq, Word.mk.injEq, reduceCtorEq] at h
    simp only [code, Code.spelled, List.map, Instr.spelled, Operand.spelled, word_spelled h.1 he he']
    rfl
  | .apply f args span, e', h, he, he' => by
    cases e' <;> simp only [erase, apply.injEq, reduceCtorEq] at h
    obtain ⟨rfl, hargs, -⟩ := h
    rw [code, code, length_of_eraseArgs hargs]
    exact codeArgs_spelled folding here hargs he.1 he'.1 rfl rfl
  | .defined arg span, e', h, he, he' => by
    cases e' <;> simp only [erase, defined.injEq, reduceCtorEq] at h
    obtain ⟨hcode, hoperand⟩ :=
      feed_of_code here h.1 he.1 he'.1 (code_spelled folding here h.1 he.1 he'.1)
    rw [code_defined, code_defined, Code.spelled_append, Code.spelled_append, hcode]
    simp only [Code.spelled, List.map, Instr.spelled, hoperand]
    rfl
  | .fallback first second span, e', h, he, he' => by
    cases e' with
    | fallback first' second' span' =>
      simp only [erase, fallback.injEq] at h
      have hsecond (n : Nat) := code_spelled folding n h.2.1 he.2.1 he'.2.1
      unfold code
      rcases operands_cases h.1 he.1 he'.1 with ⟨hnone, hnone'⟩ | ⟨o, o', ho, ho', hspelled⟩
      · have hfirst := code_spelled folding here h.1 he.1 he'.1
        simp only [hnone, hnone', Code.spelled_append, hfirst, Code.length_eq_of_spelled hfirst, hsecond]
        rfl
      · simp only [ho, ho', Code.spelled_append, hsecond, Code.spelled_cons, Instr.spelled, hspelled]
        rfl
    | _ => simp only [erase, reduceCtorEq] at h
  | .call callee args span, e', h, he, he' => by
    cases e' <;> simp only [erase, call.injEq, Word.mk.injEq, reduceCtorEq] at h
    obtain ⟨hcallee, hargs, -⟩ := h
    have hop := word_spelled hcallee.1 he.1 he'.1
    rw [code, code, length_of_eraseArgs hargs]
    refine codeArgs_spelled folding here hargs he.2.1 he'.2.1 ?_ rfl
    simp only [Instr.plain, Op.spelled, hop]
  | .both left right span, e', h, he, he' => by
    cases e' <;> simp only [erase, both.injEq, reduceCtorEq] at h
    rw [code, code]
    refine shortcut_spelled _ (fun n => ?_) here _ _ ?_ fun n => ?_
    · rfl
    · exact code_spelled folding here h.1 he.1 he'.1
    · exact code_spelled folding n h.2.1 he.2.1 he'.2.1
  | .either left right span, e', h, he, he' => by
    cases e' <;> simp only [erase, either.injEq, reduceCtorEq] at h
    rw [code, code]
    refine shortcut_spelled _ (fun n => ?_) here _ _ ?_ fun n => ?_
    · rfl
    · exact code_spelled folding here h.1 he.1 he'.1
    · exact code_spelled folding n h.2.1 he.2.1 he'.2.1

theorem codeArgs_spelled (folding : Bool) (here : Nat) : ∀ {es es' : List Expr} {last last' : Instr},
    eraseArgs es = eraseArgs es' → AllPlaced source es → AllPlaced source' es' →
    last.op.spelled source = last'.op.spelled source' →
    last.operand.spelled source = last'.operand.spelled source' →
      (codeArgs folding here es last).spelled source = (codeArgs folding here es' last').spelled source'
  | [], es', last, last', h, _, _, hop, hoperand => by
    cases es' with
    | cons e' es' => cases h
    | nil => simp only [codeArgs, Code.spelled, List.map, Instr.spelled, hop, hoperand]
  | e :: es, es', last, last', h, he, he', hop, hoperand => by
    cases es' with
    | nil => cases h
    | cons e' es' =>
      simp only [eraseArgs, List.cons.injEq] at h
      have hcode := code_spelled folding here h.1 he.1 he'.1
      have hrest (n : Nat) := codeArgs_spelled folding n h.2 he.2 he'.2 hop hoperand
      have hmore (hlast : ¬ (es = [] ∧ (e.folded? folding).isSome))
          (hlast' : ¬ (es' = [] ∧ (e'.folded? folding).isSome)) :
          (codeArgs folding here (e :: es) last).spelled source =
            (codeArgs folding here (e' :: es') last').spelled source' := by
        rw [codeArgs_cons hlast, codeArgs_cons hlast', Code.spelled_append, Code.spelled_append, hcode,
          Code.length_eq_of_spelled hcode, hrest]
      rcases folded_cases folding h.1 he.1 he'.1 with ⟨hnone, hnone'⟩ | ⟨o, o', ho, ho', hspelled⟩
      · exact hmore (by simp [hnone]) (by simp [hnone'])
      · cases es with
        | nil =>
          obtain rfl := List.length_eq_zero_iff.mp (length_of_eraseArgs h.2).symm
          rw [codeArgs_folded ho, codeArgs_folded ho']
          simp only [Code.spelled, List.map, Instr.spelled, hop, hspelled]
        | cons e₂ es =>
          have hlength := length_of_eraseArgs h.2
          refine hmore (by simp) ?_
          rintro ⟨rfl, -⟩
          cases hlength

end

end Expr

/-! ## Pages -/

theorem Body.output_spelled {source source' : List Char} {e e' : Expr} (h : e.erase = e'.erase)
    (he : e.Placed source) (he' : e'.Placed source') (folding : Bool) (here : Nat) (span span' : Span) :
    ((Body.output e span .done).code folding here).spelled source =
      ((Body.output e' span' .done).code folding here).spelled source' := by
  have hcode := Expr.code_spelled folding here h he he'
  obtain ⟨hfeed, hoperand⟩ := Expr.feed_of_code here h he he' hcode
  rw [code_output, code_output, Code.spelled_append, Code.spelled_append, hfeed, Code.spelled_cons,
    Code.spelled_cons, Instr.spelled, Instr.spelled, hoperand]
  rfl

def Page.spelled (p : Page) : List (Spelled Op × Spelled Operand) :=
  Code.spelled p.source.toList p.code.toList

end Stencil

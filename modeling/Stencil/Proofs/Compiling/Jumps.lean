import Stencil.Proofs.Including.Closure
import Stencil.Proofs.Scoping.Loops
/-!
# Where jumps lead

All jumps of a program have got their targets, and none leads past its end. A loop is entered and left
at its ends only: every other jump goes forward, and stays inside of the loops that it starts in and
outside of all others.
-/

namespace Stencil

def Op.target? : Op → Option Nat
  | .jump t => some t
  | .jumpUnless t => some t
  | .jumpIfFalse t => some t
  | .jumpIfTrue t => some t
  | .loopStart _ t => some t
  | .loopNext t => some t
  | _ => none

def Op.turns : Op → Bool
  | .loopStart _ _ => true
  | .loopNext _ => true
  | _ => false

namespace Code

def opAt? (program : Array Instr) (p : Nat) : Option Op := program[p]?.map (·.op)

def Leads (program : Array Instr) (p t : Nat) : Prop := (opAt? program p).bind Op.target? = some t

/-- A loop, from the instruction that enters it to the one that begins its next round. -/
structure Loops (program : Array Instr) (first last : Nat) : Prop where
  enter : ∃ binder, opAt? program first = some (.loopStart binder (last + 1))
  again : opAt? program last = some (.loopNext (first + 1))
  lt : first < last

def InRound (first last p : Nat) : Prop := first < p ∧ p ≤ last

/-- The jumps of a whole program, and its loops. -/
structure Structured (program : Array Instr) : Prop where
  target : ∀ p t, Leads program p t → t ≠ Op.unset ∧ t ≤ program.size
  again : ∀ p t, opAt? program p = some (.loopNext t) → ∃ first, t = first + 1 ∧ Loops program first p
  enter : ∀ p binder t, opAt? program p = some (.loopStart binder t) →
    ∃ last, t = last + 1 ∧ Loops program p last
  nested : ∀ a b c d, Loops program a b → Loops program c d →
    (a = c ∧ b = d) ∨ b < c ∨ d < a ∨ (a < c ∧ d < b) ∨ (c < a ∧ b < d)
  forward : ∀ p t, Leads program p t → opAt? program p ≠ some (.loopNext t) → p < t
  within : ∀ p t first last, Leads program p t → Loops program first last →
    (InRound first last p ↔ InRound first last t)

variable {program : Array Instr} {exit exit' here here' mid stop stop' first last p : Nat}

theorem opAt?_eq {i : Instr} (h : program[p]? = some i) : opAt? program p = some i.op := by
  rw [opAt?, h, Option.map_some]

theorem leads_eq {op : Op} {t : Nat} (h : opAt? program p = some op) :
    Leads program p t ↔ op.target? = some t := by
  rw [Leads, h, Option.bind_some]

theorem Loops.leads_enter (h : Loops program first last) : Leads program first (last + 1) := by
  obtain ⟨binder, henter⟩ := h.enter
  exact (leads_eq henter).mpr rfl

theorem Loops.last_eq (h : Loops program first last) {last' : Nat} (h' : Loops program first last') :
    last = last' := by
  obtain ⟨binder, henter⟩ := h.enter
  obtain ⟨binder', henter'⟩ := h'.enter
  rw [henter] at henter'
  cases henter'
  rfl

/-! ## One place -/

/-- What holds of the instruction at a place between two others. It may also lead to an exit behind them
both. -/
structure Sits (program : Array Instr) (exit here stop p : Nat) : Prop where
  target : ∀ t, Leads program p t → here < t ∧ (t ≤ stop ∨ t = exit)
  again : ∀ t, opAt? program p = some (.loopNext t) →
    ∃ first, here ≤ first ∧ t = first + 1 ∧ Loops program first p
  enter : ∀ binder t, opAt? program p = some (.loopStart binder t) →
    ∃ last, last < stop ∧ t = last + 1 ∧ Loops program p last
  forward : ∀ t, Leads program p t → opAt? program p ≠ some (.loopNext t) → p < t
  within : ∀ t first last, Leads program p t → Loops program first last → here ≤ first →
    first < stop → (InRound first last p ↔ InRound first last t)

theorem Sits.extend (h : Sits program exit here stop p) (hp : here ≤ p) (hlt : p < stop)
    (hle : stop ≤ exit) (hhere : here' ≤ here) (hstop : stop ≤ stop')
    (hexit : exit = exit' ∨ exit ≤ stop')
    (hloops : ∀ first last, Loops program first last → here' ≤ first → first < stop' →
      (here ≤ first ∧ first < stop) ∨ last < here ∨ (stop ≤ first ∧ last < exit) ∨
        (first < here ∧ exit ≤ last)) : Sits program exit' here' stop' p := by
  constructor
  · intro t ht
    have := h.target t ht
    omega
  · intro t hop
    obtain ⟨first, hfirst, heq, hl⟩ := h.again t hop
    exact ⟨first, by omega, heq, hl⟩
  · intro binder t hop
    obtain ⟨last, hlast, heq, hl⟩ := h.enter binder t hop
    exact ⟨last, by omega, heq, hl⟩
  · exact h.forward
  · intro t first last ht hl hfirst hfirstlt
    have htarget := h.target t ht
    rcases hloops first last hl hfirst hfirstlt with ⟨hin, hinlt⟩ | hside
    · exact h.within t first last ht hl hin hinlt
    · unfold InRound
      omega

/-! ## A part of a program -/

/-- The part from one place up to another is so at each place. -/
structure Aimed (program : Array Instr) (exit here stop : Nat) : Prop where
  le_stop : here ≤ stop
  le_exit : stop ≤ exit
  sits : ∀ p, here ≤ p → p < stop → Sits program exit here stop p

namespace Aimed

theorem last_lt (h : Aimed program exit here stop) (hl : Loops program first last)
    (hfirst : here ≤ first) (hlt : first < stop) : last < stop := by
  obtain ⟨binder, henter⟩ := hl.enter
  obtain ⟨last', hlast, heq, -⟩ := (h.sits first hfirst hlt).enter binder _ henter
  omega

theorem nil (h : here ≤ exit) : Aimed program exit here here := by
  refine ⟨Nat.le_refl here, h, ?_⟩
  intro p hp hlt
  omega

theorem widen (h : Aimed program stop here stop) (hexit : stop ≤ exit) :
    Aimed program exit here stop := by
  refine ⟨h.le_stop, hexit, ?_⟩
  intro p hp hlt
  apply (h.sits p hp hlt).extend hp hlt (by omega) (by omega) (by omega) (by omega)
  intro first last hl hfirst hfirstlt
  omega

theorem append (ha : Aimed program exit here mid) (hb : Aimed program exit mid stop) :
    Aimed program exit here stop := by
  have hmid := ha.le_stop
  have hstop := hb.le_stop
  have hexit := hb.le_exit
  refine ⟨by omega, hexit, ?_⟩
  intro p hp hlt
  by_cases hside : p < mid
  · apply (ha.sits p hp hside).extend hp hside ha.le_exit (by omega) (by omega) (by omega)
    intro first last hl hfirst hfirstlt
    by_cases hloop : first < mid
    · omega
    · have := hb.last_lt hl (by omega) hfirstlt
      omega
  · apply (hb.sits p (by omega) hlt).extend (by omega) hlt hexit (by omega) (by omega) (by omega)
    intro first last hl hfirst hfirstlt
    by_cases hloop : first < mid
    · have := ha.last_lt hl hfirst hloop
      omega
    · omega

theorem cons {op : Op} (hop : opAt? program here = some op) (hturns : op.turns = false)
    (htarget : ∀ t, op.target? = some t → t = stop ∨ t = exit)
    (h : Aimed program exit (here + 1) stop) : Aimed program exit here stop := by
  have hle := h.le_stop
  have hexit := h.le_exit
  have hne : ∀ {first last}, Loops program first last → first ≠ here := by
    rintro first last hl rfl
    obtain ⟨binder, hstart⟩ := hl.enter
    rw [hop] at hstart
    cases hstart
    cases hturns
  have hlead : ∀ t, Leads program here t → t = stop ∨ t = exit := by
    intro t ht
    exact htarget t ((leads_eq hop).mp ht)
  refine ⟨by omega, hexit, ?_⟩
  intro p hp hlt
  by_cases hhere : p = here
  · subst hhere
    constructor
    · intro t ht
      have := hlead t ht
      omega
    · intro t hop'
      rw [hop] at hop'
      cases hop'
      cases hturns
    · intro binder t hop'
      rw [hop] at hop'
      cases hop'
      cases hturns
    · intro t ht _
      have := hlead t ht
      omega
    · intro t first last ht hl hfirst hfirstlt
      have hfirst' := hne hl
      have hlast := h.last_lt hl (by omega) hfirstlt
      have := hlead t ht
      unfold InRound
      omega
  · apply (h.sits p (by omega) hlt).extend (by omega) hlt hexit (by omega) (by omega) (by omega)
    intro first last hl hfirst hfirstlt
    have := hne hl
    omega

theorem inner (hloop : Loops program here last) (h : Aimed program last (here + 1) last) {last' : Nat}
    (hl : Loops program first last') (hfirst : here ≤ first) (hlt : first < last + 1) :
    (first = here ∧ last' = last) ∨ (here < first ∧ last' < last) := by
  by_cases hhere : first = here
  · subst hhere
    exact .inl ⟨rfl, hl.last_eq hloop⟩
  · have hne : first ≠ last := by
      rintro rfl
      obtain ⟨binder, hstart⟩ := hl.enter
      rw [hloop.again] at hstart
      cases hstart
    have := h.last_lt hl (by omega) (by omega)
    omega

theorem sits_first (hloop : Loops program here last) (h : Aimed program last (here + 1) last) :
    Sits program (last + 1) here (last + 1) here := by
  have hlt := hloop.lt
  obtain ⟨binder, henter⟩ := hloop.enter
  constructor
  · intro t ht
    cases (leads_eq henter).mp ht
    omega
  · intro t hop
    rw [henter] at hop
    cases hop
  · intro binder' t hop
    rw [henter] at hop
    cases hop
    exact ⟨last, by omega, rfl, hloop⟩
  · intro t ht _
    cases (leads_eq henter).mp ht
    omega
  · intro t first last' ht hl hfirst hfirstlt
    cases (leads_eq henter).mp ht
    have := inner hloop h hl hfirst hfirstlt
    unfold InRound
    omega

theorem sits_last (hloop : Loops program here last) (h : Aimed program last (here + 1) last) :
    Sits program (last + 1) here (last + 1) last := by
  have hlt := hloop.lt
  have hagain := hloop.again
  constructor
  · intro t ht
    cases (leads_eq hagain).mp ht
    omega
  · intro t hop
    rw [hagain] at hop
    cases hop
    exact ⟨here, by omega, rfl, hloop⟩
  · intro binder t hop
    rw [hagain] at hop
    cases hop
  · intro t ht hop
    cases (leads_eq hagain).mp ht
    exact absurd hagain hop
  · intro t first last' ht hl hfirst hfirstlt
    cases (leads_eq hagain).mp ht
    have := inner hloop h hl hfirst hfirstlt
    unfold InRound
    omega

theorem loop (hloop : Loops program here last) (h : Aimed program last (here + 1) last) :
    Aimed program (last + 1) here (last + 1) := by
  have hlt := hloop.lt
  refine ⟨by omega, by omega, ?_⟩
  intro p hp hplt
  by_cases hhere : p = here
  · subst hhere
    exact sits_first hloop h
  · by_cases hlast : p = last
    · subst hlast
      exact sits_last hloop h
    · apply (h.sits p (by omega) (by omega)).extend (by omega) (by omega) (by omega) (by omega)
        (by omega) (by omega)
      intro first last' hl hfirst hfirstlt
      have := inner hloop h hl hfirst hfirstlt
      omega

theorem structured (h : Aimed program program.size 0 program.size) : Structured program := by
  have hin : ∀ {p op}, opAt? program p = some op → p < program.size := by
    intro p op hop
    obtain ⟨i, hi, -⟩ := Option.map_eq_some_iff.mp hop
    exact (Array.getElem?_eq_some_iff.mp hi).1
  have hlead : ∀ {p t}, Leads program p t → p < program.size := by
    intro p t ht
    obtain ⟨op, hop, -⟩ := Option.bind_eq_some_iff.mp ht
    exact hin hop
  have hstart : ∀ {first last}, Loops program first last → first < program.size := by
    intro first last hl
    obtain ⟨binder, hop⟩ := hl.enter
    exact hin hop
  have hwithin : ∀ p t first last, Leads program p t → Loops program first last →
      (InRound first last p ↔ InRound first last t) := by
    intro p t first last ht hl
    exact (h.sits p (by omega) (hlead ht)).within t first last ht hl (by omega) (hstart hl)
  constructor
  · intro p t ht
    have := (h.sits p (by omega) (hlead ht)).target t ht
    unfold Op.unset
    omega
  · intro p t hop
    obtain ⟨first, -, heq, hl⟩ := (h.sits p (by omega) (hin hop)).again t hop
    exact ⟨first, heq, hl⟩
  · intro p binder t hop
    obtain ⟨last, -, heq, hl⟩ := (h.sits p (by omega) (hin hop)).enter binder t hop
    exact ⟨last, heq, hl⟩
  · intro a b c d hab hcd
    -- the loop that begins last goes on to its own end, which lies where its start does
    have hsame : a = c → b = d := by
      rintro rfl
      exact hab.last_eq hcd
    have hc := hwithin c (d + 1) a b hcd.leads_enter hab
    have ha := hwithin a (b + 1) c d hab.leads_enter hcd
    unfold InRound at hc ha
    omega
  · intro p t ht hop
    exact (h.sits p (by omega) (hlead ht)).forward t ht hop
  · exact hwithin

end Aimed

/-! ## Code at an address -/

def Aims (program : Array Instr) (exit here : Nat) (code : Code) : Prop :=
  Code.At program here code → here + code.length ≤ exit →
    Aimed program exit here (here + code.length)

def Keeps (program : Array Instr) (here : Nat) (code : Code) : Prop :=
  ∀ exit, Aims program exit here code

namespace Aims

variable {a b : Code} {op : Op} {o : Operand} {span : Span}

theorem nil : Aims program exit here [] := fun _ h => Aimed.nil h

theorem append (ha : Aims program exit here a) (hb : Aims program exit (here + a.length) b) :
    Aims program exit here (a ++ b) := by
  intro h hexit
  rw [List.length_append, ← Nat.add_assoc] at hexit ⊢
  exact (ha h.left (by omega)).append (hb h.right hexit)

theorem cons (hturns : op.turns = false)
    (htarget : ∀ t, op.target? = some t → t = here + 1 + b.length ∨ t = exit)
    (hb : Aims program exit (here + 1) b) : Aims program exit here (⟨op, o, span⟩ :: b) := by
  intro h hexit
  rw [List.length_cons, Nat.add_comm b.length, ← Nat.add_assoc] at hexit ⊢
  exact (hb h.tail hexit).cons (opAt?_eq h.head) hturns htarget

theorem keeps (h : Aims program (here + a.length) here a) : Keeps program here a := by
  intro exit hat hexit
  exact (h hat (Nat.le_refl _)).widen hexit

end Aims

namespace Keeps

variable {a b : Code} {op : Op} {o : Operand} {span : Span}

theorem nil : Keeps program here [] := fun _ => Aims.nil

theorem append (ha : Keeps program here a) (hb : Keeps program (here + a.length) b) :
    Keeps program here (a ++ b) := fun exit => (ha exit).append (hb exit)

theorem plain (hop : op.target? = none) (hb : Keeps program (here + 1) b) :
    Keeps program here (⟨op, o, span⟩ :: b) := by
  intro exit
  apply Aims.cons _ _ (hb exit)
  · cases op <;> first | rfl | cases hop
  · intro t ht
    rw [hop] at ht
    cases ht

theorem single (hop : op.target? = none) : Keeps program here [⟨op, o, span⟩] := plain hop nil

theorem jump_over (hturns : op.turns = false) (hop : op.target? = some (here + 1 + b.length))
    (hb : Keeps program (here + 1) b) : Keeps program here (⟨op, o, span⟩ :: b) := by
  intro exit
  apply Aims.cons hturns _ (hb exit)
  intro t ht
  rw [hop] at ht
  cases ht
  exact .inl rfl

theorem loop {binder : Binder Span} {endSpan : Span} (hb : Keeps program (here + 1) b) :
    Keeps program here (⟨.loopStart binder (here + 1 + b.length + 1), o, span⟩ :: b ++
      [Instr.plain (.loopNext (here + 1)) endSpan]) := by
  apply Aims.keeps
  intro h _
  have hnext := h.right.head
  have hlength : here + (⟨.loopStart binder (here + 1 + b.length + 1), o, span⟩ :: b ++
      [Instr.plain (.loopNext (here + 1)) endSpan]).length = here + 1 + b.length + 1 := by
    simp
    omega
  rw [List.length_cons, Nat.add_comm b.length, ← Nat.add_assoc] at hnext
  rw [hlength]
  have hbody := hb (here + 1 + b.length) h.left.tail (Nat.le_refl _)
  have hloop : Loops program here (here + 1 + b.length) :=
    ⟨⟨binder, opAt?_eq h.left.head⟩, opAt?_eq hnext, by omega⟩
  exact Aimed.loop hloop hbody

end Keeps

end Code

/-! ## Expressions -/

namespace Expr

open Code

variable {program : Array Instr} {folding : Bool}

theorem keeps_shortcut {op : Nat → Op} {here : Nat} {a : Code} {second : Nat → Code} {span : Span}
    (hturns : ∀ t, (op t).turns = false) (hop : ∀ t, (op t).target? = some t)
    (ha : Keeps program here a) (hb : ∀ n, Keeps program n (second n)) :
    Keeps program here (shortcut op here a second span) := by
  unfold shortcut
  apply Keeps.append
  · exact ha.append (Keeps.jump_over (hturns _) (hop _) (hb _))
  · exact .single rfl

mutual

theorem keeps_code : ∀ (e : Expr) (here : Nat), Keeps program here (e.code folding here)
  | .literal v span, here => .single rfl
  | .name word, here => .single rfl
  | .apply f args span, here => by
    unfold code
    exact keeps_codeArgs args here rfl
  | .defined arg span, here => by
    unfold code
    split
    · exact .single rfl
    · exact (keeps_code arg here).append (.single rfl)
  | .fallback first second span, here => by
    unfold code
    split
    · exact (keeps_code second here).append (.single rfl)
    · exact ((keeps_code first here).append (keeps_code second _)).append (.single rfl)
  | .call callee args span, here => by
    unfold code
    exact keeps_codeArgs args here rfl
  | .both left right span, here => by
    unfold code
    exact keeps_shortcut (fun _ => rfl) (fun _ => rfl) (keeps_code left here) (keeps_code right)
  | .either left right span, here => by
    unfold code
    exact keeps_shortcut (fun _ => rfl) (fun _ => rfl) (keeps_code left here) (keeps_code right)

theorem keeps_codeArgs : ∀ (args : List Expr) (here : Nat) {last : Instr},
    last.op.target? = none → Keeps program here (codeArgs folding here args last)
  | [], here, last, h => .single h
  | e :: rest, here, last, h => by
    by_cases hlast : rest = [] ∧ (e.folded? folding).isSome
    · obtain ⟨rfl, hf⟩ := hlast
      obtain ⟨o, ho⟩ := Option.isSome_iff_exists.mp hf
      rw [codeArgs_folded ho]
      exact .single h
    · rw [codeArgs_cons hlast]
      exact (keeps_code e here).append (keeps_codeArgs rest _ h)

end

theorem keeps_feed (e : Expr) (here : Nat) : Keeps program here (e.feed folding here).1 := by
  unfold feed
  split
  · exact .nil
  · exact keeps_code e here

end Expr

/-! ## Bodies -/

namespace Body

open Code

variable {program : Array Instr} {folding : Bool}

theorem keeps_branches {here : Nat} {b c : Code} {test elseSpan : Span}
    (hb : Keeps program (here + 1) b) (hc : Keeps program (here + 1 + b.length + 1) c) :
    Keeps program here (.plain (.jumpUnless (here + 1 + b.length + 1)) test :: b ++
      .plain (.jump (here + 1 + b.length + 1 + c.length)) elseSpan :: c) := by
  have hshape : ∀ i j : Instr, i :: b ++ j :: c = i :: (b ++ [j]) ++ c := by simp
  have hfirst : ∀ i : Instr, here + (i :: (b ++ [Instr.plain (.jump
      (here + 1 + b.length + 1 + c.length)) elseSpan])).length = here + 1 + b.length + 1 := by
    intro i
    simp
    omega
  apply Aims.keeps
  rw [hshape, List.length_append, ← Nat.add_assoc, hfirst]
  apply Aims.append
  · -- the jump behind the first branch leads to the end of the second one
    apply Aims.cons rfl
    · rintro t ⟨⟩
      left
      simp
      omega
    · apply (hb _).append
      apply Aims.cons rfl _ .nil
      rintro t ⟨⟩
      exact .inr rfl
  · rw [hfirst]
    exact hc _

theorem keeps_code (b : Body) (here : Nat) : Keeps program here (b.code folding here) := by
  induction b generalizing here with
  | done => exact .nil
  | text s span rest ih =>
    unfold code
    exact .plain rfl (ih _)
  | output e span rest ih =>
    rw [code_output]
    exact (e.keeps_feed here).append (.plain rfl (ih _))
  | cond test yes rest ihYes ih =>
    unfold code
    apply Keeps.append
    · exact (test.expr.keeps_code here).append (.jump_over rfl rfl (ihYes _))
    · rw [Code.place_cons]
      exact ih _
  | choice test yes span no rest ihYes ihNo ih =>
    unfold code
    apply Keeps.append
    · rw [List.append_assoc]
      exact (test.expr.keeps_code here).append (keeps_branches (ihYes _) (ihNo _))
    · rw [Code.place_append_cons]
      exact ih _
  | loop binder source body span rest ihBody ih =>
    rw [code_loop, List.append_cons _ _ (Body.code _ _ rest), List.append_assoc _ _ [_]]
    apply Keeps.append
    · exact (source.expr.keeps_feed here).append (.loop (ihBody _))
    · have hplace : ∀ (a c : Code) (i j : Instr), here + (a ++ (i :: c ++ [j])).length =
          here + a.length + 1 + c.length + 1 := by
        intro a c i j
        simp
        omega
      rw [hplace]
      exact ih _
  | inclusion key span rest ih =>
    unfold code
    exact .plain rfl (ih _)
  | set path e span rest ih =>
    rw [code_set]
    exact (e.keeps_feed here).append (.plain rfl (ih _))

end Body

/-! ## Compiled templates -/

theorem Page.Sound.jumps {p : Page} (h : p.Sound) : Code.Structured p.code := by
  have hat : Code.At p.code 0 (p.body.code p.folding 0) := h.code_eq ▸ Code.At.whole _
  have hsize : p.code.size = 0 + (p.body.code p.folding 0).length := by
    rw [h.code_eq, List.size_toArray, Nat.zero_add]
  apply Code.Aimed.structured
  have haimed := p.body.keeps_code 0 p.code.size hat (Nat.le_of_eq hsize.symm)
  rwa [← hsize] at haimed

namespace Engine

/-- The program of each page that a compiled template has got. -/
theorem jumps_structured {e : Engine} {name : Option String} {t : Template} {p : Page}
    (he : e.Reached) (ht : e.Offers name t) (hp : t.Has p) : Code.Structured p.code :=
  ((he.sound_of_offers ht).page_sound hp).jumps

theorem jumps_structured_round : rounding.Reached ∧
    rounding.Offers (some "a") ⟨roundPage, []⟩ ∧ Code.Loops roundPage.code 0 2 ∧
    Code.Structured roundPage.code :=
  ⟨rounding_reached, rounding_offers, ⟨⟨_, rfl⟩, rfl, by decide⟩,
    jumps_structured rounding_reached rounding_offers (.inl rfl)⟩

end Engine

end Stencil

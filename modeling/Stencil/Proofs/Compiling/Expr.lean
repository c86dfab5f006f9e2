import Stencil.Emitter
import Stencil.Proofs.Compiling.Layout
/-!
# The code of an expression as it is emitted

Emitting an expression adds the code that its tree has at this place. What was emitted before stays
as it is, though the call of `default` takes an instruction out and moves everything after it.
-/

namespace Stencil

/-! ## Targets -/

namespace Emitter

theorem lower_of_le {place t : Nat} (h : t ≤ place) : lower place t = t := if_neg (by omega)

theorem lower_succ {place t : Nat} (h : place ≤ t) : lower place (t + 1) = t := if_pos (by omega)

end Emitter

namespace Instr

theorem mapTarget_mapTarget (f g : Nat → Nat) (i : Instr) :
    (i.mapTarget f).mapTarget g = i.mapTarget (g ∘ f) := by
  obtain ⟨op, o, span⟩ := i
  cases op <;> rfl

def UpTo (n : Nat) (i : Instr) : Prop := ∀ place, n ≤ place → i.mapTarget (Emitter.lower place) = i

theorem mapTarget_plain (f : Nat → Nat) (op : Op) (span : Span) :
    (plain op span).mapTarget f = plain (op.mapTarget f) span := rfl

variable {n m : Nat} {i : Instr}

theorem UpTo.mono (h : i.UpTo n) (hm : n ≤ m) : i.UpTo m := fun place hp =>
  h place (Nat.le_trans hm hp)

theorem upTo_aim (i : Instr) (n : Nat) : (i.mapTarget fun _ => n).UpTo n := by
  intro place hp
  rw [mapTarget_mapTarget]
  congr 1
  funext t
  exact Emitter.lower_of_le hp

end Instr

/-! ## Instructions that push -/

namespace Expr

variable {folding : Bool} {here : Nat}

theorem code_operand (folding : Bool) (here : Nat) {e : Expr} {o : Operand}
    (h : e.operand? = some o) :
    ∃ span, e.code folding here = [⟨.push, o, span⟩] := by
  cases e <;> simp only [operand?, Option.some.injEq, reduceCtorEq] at h <;> subst h
  · exact ⟨_, rfl⟩
  · exact ⟨_, rfl⟩

theorem codeArgs_eq (folding : Bool) (here : Nat) (args : List Expr) (last : Instr) :
    ∃ a o, codeArgs folding here args last = a ++ [{ last with operand := o }] := by
  induction args generalizing here with
  | nil => exact ⟨[], last.operand, rfl⟩
  | cons e rest ih =>
    cases rest with
    | nil =>
      rw [codeArgs]
      cases e.folded? folding with
      | some o => exact ⟨[], o, rfl⟩
      | none => exact ⟨_, _, rfl⟩
    | cons e' rest =>
      obtain ⟨a, o, h⟩ := @ih (here + (e.code folding here).length)
      refine ⟨e.code folding here ++ a, o, ?_⟩
      rw [codeArgs, h, List.append_assoc]
      simp

theorem code_compound (folding : Bool) (here : Nat) {e : Expr} (h : e.operand? = none) :
    ∃ a i, e.code folding here = a ++ [i] ∧ i.pushed? = none := by
  cases e with
  | literal | name => cases h
  | apply f args span =>
    obtain ⟨a, o, ha⟩ := codeArgs_eq folding here args _
    exact ⟨a, _, ha, rfl⟩
  | call callee args span =>
    obtain ⟨a, o, ha⟩ := codeArgs_eq folding here args _
    exact ⟨a, _, ha, rfl⟩
  | defined arg span =>
    rw [code]
    cases arg.folded? folding with
    | some o => exact ⟨[], _, rfl, rfl⟩
    | none => exact ⟨_, _, rfl, rfl⟩
  | fallback first second span =>
    rw [code]
    cases first.operand? with
    | some o => exact ⟨_, _, rfl, rfl⟩
    | none => exact ⟨_, _, rfl, rfl⟩
  | both left right span => exact ⟨_, _, rfl, rfl⟩
  | either left right span => exact ⟨_, _, rfl, rfl⟩

/-! ## Code one place further -/

theorem shortcut_lower {op : Nat → Op} (hop : ∀ t f, (op t).mapTarget f = op (f t)) {place : Nat}
    {a a' : Code} {b : Nat → Code} {span : Span}
    (ha : a'.map (·.mapTarget (Emitter.lower place)) = a)
    (hb : (b (here + a.length + 1 + 1)).map (·.mapTarget (Emitter.lower place)) =
      b (here + a.length + 1)) (h : place ≤ here) :
    (shortcut op (here + 1) a' b span).map (·.mapTarget (Emitter.lower place)) =
      shortcut op here a b span := by
  have hla : a'.length = a.length := by rw [← ha, List.length_map]
  have hlb : (b (here + a.length + 1 + 1)).length = (b (here + a.length + 1)).length := by
    rw [← hb, List.length_map]
  have hplace : here + 1 + a.length + 1 = here + a.length + 1 + 1 := by omega
  simp only [shortcut, hla, hplace, hlb, List.map_append, List.map_cons, ha, hb]
  rw [Nat.add_right_comm _ 1, Instr.plain, Instr.mapTarget, hop, Emitter.lower_succ (by omega)]
  rfl

mutual

theorem code_lower (place : Nat) : ∀ (e : Expr) (here : Nat), place ≤ here →
    (e.code folding (here + 1)).map (·.mapTarget (Emitter.lower place)) = e.code folding here
  | .literal _ _, _, _ => rfl
  | .name _, _, _ => rfl
  | .apply f args span, here, h => by
    rw [code, code]
    exact codeArgs_lower place args here _ h
  | .call callee args span, here, h => by
    rw [code, code]
    exact codeArgs_lower place args here _ h
  | .defined arg span, here, h => by
    rw [code, code]
    cases arg.folded? folding with
    | some o => rfl
    | none =>
      simp only [List.map_append, code_lower place arg here h]
      rfl
  | .fallback first second span, here, h => by
    rw [code, code]
    cases first.operand? with
    | some o =>
      simp only [List.map_append, code_lower place second here h]
      rfl
    | none =>
      have hfirst := code_lower place first here h
      have hlength := congrArg List.length hfirst
      rw [List.length_map] at hlength
      have hsecond := code_lower place second (here + (first.code folding here).length) (by omega)
      simp only [hlength, List.map_append, hfirst, Nat.add_right_comm here 1, hsecond]
      rfl
  | .both left right span, here, h => by
    rw [code, code]
    exact shortcut_lower (fun t f => rfl) (code_lower place left here h)
      (code_lower place right _ (by omega)) h
  | .either left right span, here, h => by
    rw [code, code]
    exact shortcut_lower (fun t f => rfl) (code_lower place left here h)
      (code_lower place right _ (by omega)) h

theorem codeArgs_lower (place : Nat) : ∀ (args : List Expr) (here : Nat) (last : Instr),
    place ≤ here →
    (codeArgs folding (here + 1) args last).map (·.mapTarget (Emitter.lower place)) =
      codeArgs folding here args (last.mapTarget (Emitter.lower place))
  | [], _, _, _ => rfl
  | [e], here, last, h => by
    rw [codeArgs, codeArgs]
    cases e.folded? folding with
    | some o => rfl
    | none =>
      simp only [List.map_append, code_lower place e here h]
      rfl
  | e :: e' :: rest, here, last, h => by
    have he := code_lower place e here h
    have hlength := congrArg List.length he
    rw [List.length_map] at hlength
    have hrest := codeArgs_lower place (e' :: rest) (here + (e.code folding here).length) last
      (by omega)
    simp only [codeArgs, hlength, List.map_append, he, Nat.add_right_comm here 1, hrest]

end

end Expr

/-! ## What an emitter adds -/

namespace Emitter

/-- Jumps lead no further than to the next instruction, and so does the barrier. -/
structure Sound (c : Emitter) : Prop where
  barrier_le : c.barrier ≤ c.here
  upTo : ∀ i ∈ c.code.toList, i.UpTo c.here

/-- That some code has been added at the end. -/
structure Adds (c d : Emitter) (code : Code) : Prop where
  folding : d.folding = c.folding
  code : d.code.toList = c.code.toList ++ code
  sound : d.Sound

variable {c d e : Emitter} {a b : Code}

theorem start_sound (folding : Bool) : (start folding).Sound := ⟨Nat.le_refl _, by simp [start]⟩

theorem here_eq (c : Emitter) : c.here = c.code.toList.length := rfl

namespace Adds

theorem here (h : c.Adds d a) : d.here = c.here + a.length := by
  rw [here_eq, h.code, List.length_append, here_eq]

theorem trans (h : c.Adds d a) (h' : d.Adds e b) : c.Adds e (a ++ b) where
  folding := h'.folding.trans h.folding
  code := by rw [h'.code, h.code, List.append_assoc]
  sound := h'.sound

end Adds

theorem push_adds (h : c.Sound) {i : Instr} (hi : i.UpTo (c.here + 1)) : c.Adds (c.push i) [i] where
  folding := rfl
  code := by simp [push]
  sound := by
    have hhere : (c.push i).here = c.here + 1 := by simp [push, Emitter.here]
    refine ⟨?_, ?_⟩
    · have := h.barrier_le
      rw [hhere]
      exact Nat.le_succ_of_le this
    · intro j hj
      rw [hhere]
      simp only [push, Array.toList_push, List.mem_append, List.mem_singleton] at hj
      rcases hj with hj | rfl
      · exact (h.upTo j hj).mono (Nat.le_succ _)
      · exact hi

/-! ## Operands that become part of an instruction -/

theorem loose_push {i : Instr} (h : c.barrier ≤ c.here) :
    (c.push i).loose? = if c.folding then i.pushed? else none := by
  have hlt : c.barrier < c.code.size + 1 := Nat.lt_succ_of_le h
  simp [loose?, push, Emitter.here, hlt]

theorem loose_none {i : Instr} (h : c.code.toList = a ++ [i]) (hi : i.pushed? = none) :
    c.loose? = none := by
  have hlast : c.code.back? = some i := by rw [← Array.getLast?_toList, h]; simp
  simp [loose?, hlast, hi]

theorem pushTaking_none (h : c.loose? = none) (op : Op) (args : Nat) (span : Span) :
    c.pushTaking op args span = c.push (.plain op span) := by
  unfold pushTaking
  rw [h]
  cases args <;> rfl

theorem expr_operand {x : Expr} {o : Operand} (h : x.operand? = some o) :
    ∃ span, c.expr x = c.push ⟨.push, o, span⟩ := by
  cases x <;> simp only [Expr.operand?, Option.some.injEq, reduceCtorEq] at h <;> subst h
  · exact ⟨_, rfl⟩
  · exact ⟨_, rfl⟩

theorem loose_expr {x : Expr} (hc : c.Sound) (h : c.Adds (c.expr x) (x.code c.folding c.here)) :
    (c.expr x).loose? = x.folded? c.folding := by
  cases ho : x.operand? with
  | some o =>
    obtain ⟨span, hx⟩ := expr_operand (c := c) ho
    rw [hx, loose_push hc.barrier_le, Expr.folded?, ho]
    rfl
  | none =>
    obtain ⟨a, i, ha, hi⟩ := Expr.code_compound c.folding c.here ho
    have hcode := h.code
    rw [ha, ← List.append_assoc] at hcode
    rw [loose_none hcode hi, Expr.folded?, ho, ite_self]

end Emitter

def Op.Aimless (op : Op) : Prop := ∀ place, op.mapTarget (Emitter.lower place) = op

theorem Op.Aimless.upTo {op : Op} (h : op.Aimless) (o : Operand) (span : Span) (n : Nat) :
    Instr.UpTo n ⟨op, o, span⟩ := by
  intro place hp
  rw [Instr.mapTarget, h]

namespace Emitter

variable {c d e : Emitter} {a b : Code}

theorem pushTaking_adds {x : Expr} (hc : c.Sound)
    (h : c.Adds (c.expr x) (x.code c.folding c.here)) (op : Op) (hop : op.Aimless) (args : Nat)
    (span : Span) :
    c.Adds ((c.expr x).pushTaking op (args + 1) span)
      ((x.feed c.folding c.here).1 ++ [⟨op, (x.feed c.folding c.here).2, span⟩]) := by
  unfold Expr.feed pushTaking
  rw [loose_expr hc h]
  cases hf : x.folded? c.folding with
  | some o =>
    have ho : x.operand? = some o := by
      unfold Expr.folded? at hf
      split at hf
      · exact hf
      · cases hf
    obtain ⟨place, hx⟩ := expr_operand (c := c) ho
    have hpush := push_adds hc (hop.upTo o span (c.here + 1))
    simpa [hx, push] using hpush
  | none => exact h.trans (push_adds h.sound (hop.upTo .top span _))

/-! ## Jumps that get their targets -/

theorem modify_append (f : Instr → Instr) (l l' : Code) (n : Nat) (h : n < l.length) :
    (l ++ l').modify n f = l.modify n f ++ l' := by
  induction l generalizing n with
  | nil => cases h
  | cons i l ih =>
    cases n with
    | zero => rfl
    | succ n => simpa using ih n (Nat.lt_of_succ_lt_succ h)

theorem modify_middle (f : Instr → Instr) (l : Code) (i : Instr) (l' : Code) :
    (l ++ i :: l').modify l.length f = l ++ f i :: l' := by
  induction l with
  | nil => rfl
  | cons j l ih => simpa using ih

@[simp] theorem here_land (c : Emitter) (n : Nat) : (c.land n).here = c.here := by
  simp [land, Emitter.here]

theorem land_sound (h : c.Sound) (n : Nat) : (c.land n).Sound := by
  refine ⟨by rw [here_land]; exact Nat.le_refl _, ?_⟩
  intro i hi
  rw [here_land]
  obtain ⟨k, hk⟩ := List.mem_iff_getElem?.mp hi
  simp only [land, Array.toList_modify, List.getElem?_modify] at hk
  obtain ⟨j, hj, rfl⟩ := Option.map_eq_some_iff.mp hk
  split
  · exact Instr.upTo_aim j c.here
  · exact h.upTo j (List.mem_of_getElem? hj)

theorem Adds.land {i : Instr} (h : c.Adds d (a ++ i :: b)) :
    c.Adds (d.land (c.here + a.length)) (a ++ (i.mapTarget fun _ => d.here) :: b) := by
  refine ⟨h.folding, ?_, land_sound h.sound _⟩
  rw [here_eq c, ← List.length_append, Emitter.land, Array.toList_modify, h.code,
    ← List.append_assoc, modify_middle, List.append_assoc]

@[simp] theorem loose_land (c : Emitter) (n : Nat) : (c.land n).loose? = none := by
  simp [loose?, land, Emitter.here]

theorem Adds.push (h : c.Adds d a) (op : Op) (hop : op.Aimless) (span : Span) :
    c.Adds (d.push (.plain op span)) (a ++ [.plain op span]) :=
  h.trans (push_adds h.sound (hop.upTo .top span _))

theorem shortcut_adds {op : Nat → Op} (hop : ∀ t f, (op t).mapTarget f = op (f t)) {x y : Expr}
    {span : Span} (hx : c.Adds (c.expr x) (x.code c.folding c.here))
    (hy : ∀ d : Emitter, d.Sound → d.Adds (d.expr y) (y.code d.folding d.here)) :
    c.Adds (((((c.expr x).push (.plain (op Op.unset) span)).expr y).land (c.expr x).here).pushTaking
        (.apply .bool 1) 1 span)
      (Expr.shortcut op c.here (x.code c.folding c.here) (fun n => y.code c.folding n) span) := by
  have haimless : (op Op.unset).Aimless := by
    intro place
    exact (hop _ _).trans (congrArg op (lower_of_le (Nat.zero_le place)))
  have hjump := hx.push _ haimless span
  have hsecond := hy _ hjump.sound
  rw [hjump.folding, hjump.here, List.length_append, List.length_singleton,
    ← Nat.add_assoc] at hsecond
  have hall := hjump.trans hsecond
  rw [List.append_assoc, List.singleton_append] at hall
  have hstop : (((c.expr x).push (.plain (op Op.unset) span)).expr y).here =
      c.here + (x.code c.folding c.here).length + 1 +
        (y.code c.folding (c.here + (x.code c.folding c.here).length + 1)).length := by
    rw [hall.here, List.length_append, List.length_cons]
    omega
  have hlast := hall.land.push (.apply .bool 1) (fun _ => rfl) span
  rw [hstop, Instr.mapTarget_plain, hop] at hlast
  rw [pushTaking_none (loose_land _ _), hx.here]
  exact hlast

/-! ## Expressions -/

theorem remove_adds {i : Instr} (hc : c.Sound) (h : c.Adds d (i :: b)) (hb : c.Adds e a)
    (hab : b.map (·.mapTarget (lower c.here)) = a) : c.Adds (d.remove c.here) a := by
  have hfront : c.code.toList.map (·.mapTarget (lower c.here)) = c.code.toList :=
    (List.map_congr_left fun j hj => hc.upTo j hj c.here (Nat.le_refl _)).trans (List.map_id _)
  have hcode : (d.remove c.here).code.toList = c.code.toList ++ a := by
    simp only [remove, Array.toList_map, Array.toList_eraseIdxIfInBounds, h.code]
    rw [List.eraseIdx_append_of_length_le (Nat.le_of_eq (here_eq c).symm), here_eq c, Nat.sub_self,
      List.eraseIdx_cons_zero, List.map_append, ← here_eq, hab, hfront]
  have hhere : (d.remove c.here).here = e.here := by
    rw [here_eq (d.remove c.here), hcode, ← hb.code]
    rfl
  have hlength : d.here = e.here + 1 := by
    rw [h.here, hb.here, ← hab, List.length_cons, List.length_map]
    rfl
  refine ⟨h.folding, hcode, ?_, ?_⟩
  · have hbarrier := h.sound.barrier_le
    have hplace := hb.here
    rw [hhere]
    simp only [remove]
    split <;> omega
  · intro j hj
    rw [hhere]
    rw [hcode, ← hb.code] at hj
    exact hb.sound.upTo j hj

theorem Adds.first (h : c.Adds d a) : d.code[c.here]? = a[0]? := by
  rw [← Array.getElem?_toList, h.code, List.getElem?_append_right (Nat.le_of_eq (here_eq c).symm),
    here_eq, Nat.sub_self]

theorem isSinglePush_single {o : Operand} {span : Span} (h : c.Adds d [⟨.push, o, span⟩]) :
    d.isSinglePush c.here := by
  rw [isSinglePush, h.first, h.here]
  simp [Instr.pushed?]

theorem isSinglePush_compound {i : Instr} (h : c.Adds d (a ++ [i])) (hi : i.pushed? = none) :
    d.isSinglePush c.here = false := by
  rw [isSinglePush, h.first, h.here]
  cases a with
  | nil => simp [hi]
  | cons j a => simp

theorem fallback_adds {x y : Expr} {span : Span} (hc : c.Sound)
    (hx : c.Adds (c.expr x) (x.code c.folding c.here))
    (hy : ∀ d : Emitter, d.Sound → d.Adds (d.expr y) (y.code d.folding d.here)) :
    c.Adds (((c.expr x).expr y).pushFallback c.here ((c.expr x).isSinglePush c.here) span)
      ((Expr.fallback x y span).code c.folding c.here) := by
  rw [Expr.code]
  have hsecond := hy _ hx.sound
  rw [hx.folding, hx.here] at hsecond
  have hall := hx.trans hsecond
  cases ho : x.operand? with
  | some o =>
    obtain ⟨place, hcode⟩ := Expr.code_operand c.folding c.here ho
    rw [hcode] at hx hall
    have hrest := remove_adds hc hall (hy c hc)
      (Expr.code_lower c.here y c.here (Nat.le_refl _))
    have hfirst := hall.first
    simp only [pushFallback, isSinglePush_single hx, if_true, hfirst]
    exact hrest.trans (push_adds hrest.sound (fun _ _ => rfl))
  | none =>
    obtain ⟨a, i, hcode, hi⟩ := Expr.code_compound c.folding c.here ho
    rw [hcode] at hx
    rw [pushFallback, isSinglePush_compound hx hi]
    exact hall.push .fallback (fun _ => rfl) span

mutual

theorem expr_adds : ∀ (x : Expr) (c : Emitter), c.Sound → c.Adds (c.expr x) (x.code c.folding c.here)
  | .literal v span, c, hc => push_adds hc (fun _ _ => rfl)
  | .name word, c, hc => push_adds hc (fun _ _ => rfl)
  | .apply f args span, c, hc => by
    rw [expr, Expr.code]
    exact exprs_adds args c hc (fun _ => rfl) args.length List.length_eq_zero_iff span
  | .defined arg span, c, hc => by
    have h := pushTaking_adds hc (expr_adds arg c hc) .defined (fun _ => rfl) 0 span
    rw [expr, Expr.code]
    rw [Expr.feed] at h
    cases hf : arg.folded? c.folding <;> rw [hf] at h <;> exact h
  | .fallback x y span, c, hc => by
    rw [expr]
    exact fallback_adds hc (expr_adds x c hc) (expr_adds y)
  | .call callee args span, c, hc => by
    rw [expr, Expr.code]
    exact exprs_adds args c hc (fun _ => rfl) args.length List.length_eq_zero_iff span
  | .both x y span, c, hc => by
    rw [expr, Expr.code]
    exact shortcut_adds (fun _ _ => rfl) (expr_adds x c hc) (expr_adds y)
  | .either x y span, c, hc => by
    rw [expr, Expr.code]
    exact shortcut_adds (fun _ _ => rfl) (expr_adds x c hc) (expr_adds y)

theorem exprs_adds : ∀ (xs : List Expr) (c : Emitter), c.Sound → ∀ {op : Op}, op.Aimless →
    ∀ n, (n = 0 ↔ xs = []) → ∀ span, c.Adds ((c.exprs xs).pushTaking op n span)
      (Expr.codeArgs c.folding c.here xs (.plain op span))
  | [], c, hc, op, hop, n, hn, span => by
    obtain rfl : n = 0 := hn.mpr rfl
    exact push_adds hc (hop.upTo .top span _)
  | [x], c, hc, op, hop, n, hn, span => by
    obtain ⟨n, rfl⟩ := Nat.exists_eq_succ_of_ne_zero (mt hn.mp (List.cons_ne_nil x []))
    have h := pushTaking_adds hc (expr_adds x c hc) op hop n span
    rw [exprs, exprs, Expr.codeArgs]
    rw [Expr.feed] at h
    cases hf : x.folded? c.folding <;> rw [hf] at h <;> exact h
  | x :: y :: xs, c, hc, op, hop, n, hn, span => by
    have hx := expr_adds x c hc
    have h := exprs_adds (y :: xs) (c.expr x) hx.sound hop n
      (hn.trans (by simp)) span
    rw [hx.folding, hx.here] at h
    rw [exprs, Expr.codeArgs]
    · exact hx.trans h
    · simp

end

end Emitter

end Stencil

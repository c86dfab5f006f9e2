import Stencil.Proofs.Compiling.Layout
import Stencil.Proofs.Placement.Tree
/-!
# Code whose spans lie in a source

The code of a tree that stands in a source has all its spans there, and includes only the keys that
the tree includes.
-/

namespace Stencil

variable (source : List Char) (keys : String → Prop)

def Operand.Inside : Operand → Prop
  | .name place => place.Inside source
  | _ => True

def Binder.Inside : Binder Span → Prop
  | .item name => name.Inside source
  | .pair key value => key.Inside source ∧ value.Inside source

def Op.Fits : Op → Prop
  | .text place => place.Inside source
  | .call name _ => name.Inside source
  | .loopStart binder _ => binder.Inside source
  | .inclusion key => keys key
  | _ => True

/-- All spans of the instruction lie in the source, and a key that it includes is one of the keys. -/
structure Instr.Fits (i : Instr) : Prop where
  op : i.op.Fits source keys
  operand : i.operand.Inside source
  span : i.span.Inside source

def Code.Fits (code : Code) : Prop := ∀ i ∈ code, i.Fits source keys

variable {source keys} {folding : Bool} {here : Nat}

theorem Instr.fits_plain {op : Op} {span : Span} (hop : op.Fits source keys)
    (hspan : span.Inside source) : (Instr.plain op span).Fits source keys :=
  ⟨hop, trivial, hspan⟩

namespace Code

theorem Fits.nil : Code.Fits source keys [] := nofun

theorem Fits.cons {i : Instr} {a : Code} (hi : i.Fits source keys) (ha : a.Fits source keys) :
    Code.Fits source keys (i :: a) := List.forall_mem_cons.mpr ⟨hi, ha⟩

theorem Fits.single {i : Instr} (hi : i.Fits source keys) : Code.Fits source keys [i] :=
  .cons hi .nil

theorem Fits.append {a b : Code} (ha : a.Fits source keys) (hb : b.Fits source keys) :
    Code.Fits source keys (a ++ b) := List.forall_mem_append.mpr ⟨ha, hb⟩

end Code

/-! ## Expressions -/

namespace Expr

theorem operand_inside {e : Expr} {o : Operand} (h : e.operand? = some o) (hp : e.Placed source) :
    o.Inside source := by
  cases e with
  | literal v span =>
    cases h
    trivial
  | name word =>
    cases h
    exact hp.inside
  | _ => cases h

theorem folded_inside {e : Expr} {o : Operand} (h : e.folded? folding = some o)
    (hp : e.Placed source) : o.Inside source := by
  unfold folded? at h
  split at h
  · exact operand_inside h hp
  · cases h

theorem shortcut_fits {op : Nat → Op} {a : Code} {second : Nat → Code} {span : Span}
    (hop : ∀ t, (op t).Fits source keys) (ha : a.Fits source keys)
    (hb : ∀ n, (second n).Fits source keys) (hspan : span.Inside source) :
    (shortcut op here a second span).Fits source keys := by
  unfold shortcut
  exact .append (.append ha (.cons (Instr.fits_plain (hop _) hspan) (hb _)))
    (.single (Instr.fits_plain trivial hspan))

mutual

theorem code_fits : ∀ (e : Expr) (here : Nat), e.Placed source →
    (e.code folding here).Fits source keys
  | .literal v span, here, hp => .single ⟨trivial, trivial, hp⟩
  | .name word, here, hp => .single ⟨trivial, hp.inside, hp.inside⟩
  | .apply f args span, here, hp => by
    rw [code]
    exact codeArgs_fits args here trivial hp.2 hp.1
  | .defined arg span, here, hp => by
    rw [code_defined]
    unfold feed
    split
    · next o ho => exact .single ⟨trivial, folded_inside ho hp.1, hp.2⟩
    · exact .append (code_fits arg here hp.1) (.single (Instr.fits_plain trivial hp.2))
  | .fallback first second span, here, hp => by
    rw [code]
    split
    · next o ho =>
      exact .append (code_fits second here hp.2.1)
        (.single ⟨trivial, operand_inside ho hp.1, hp.2.2⟩)
    · exact .append (.append (code_fits first here hp.1) (code_fits second _ hp.2.1))
        (.single (Instr.fits_plain trivial hp.2.2))
  | .call callee args span, here, hp => by
    rw [code]
    exact codeArgs_fits args here hp.1.inside hp.2.2 hp.2.1
  | .both left right span, here, hp => by
    rw [code]
    exact shortcut_fits (fun _ => trivial) (code_fits left here hp.1)
      (fun n => code_fits right n hp.2.1) hp.2.2
  | .either left right span, here, hp => by
    rw [code]
    exact shortcut_fits (fun _ => trivial) (code_fits left here hp.1)
      (fun n => code_fits right n hp.2.1) hp.2.2

theorem codeArgs_fits : ∀ (args : List Expr) (here : Nat) {op : Op} {span : Span},
    op.Fits source keys → span.Inside source → AllPlaced source args →
      (codeArgs folding here args (.plain op span)).Fits source keys
  | [], here, op, span, hop, hspan, hp => .single (Instr.fits_plain hop hspan)
  | e :: rest, here, op, span, hop, hspan, hp => by
    by_cases hlast : rest = [] ∧ (e.folded? folding).isSome
    · obtain ⟨rfl, hf⟩ := hlast
      obtain ⟨o, ho⟩ := Option.isSome_iff_exists.mp hf
      rw [codeArgs_folded ho]
      exact .single ⟨hop, folded_inside ho hp.1, hspan⟩
    · rw [codeArgs_cons hlast]
      exact .append (code_fits e here hp.1) (codeArgs_fits rest _ hop hspan hp.2)

end

theorem feed_fits {e : Expr} (hp : e.Placed source) {op : Op} {span : Span}
    (hop : op.Fits source keys) (hspan : span.Inside source) {rest : Code}
    (hrest : rest.Fits source keys) :
    Code.Fits source keys
      ((e.feed folding here).1 ++ ⟨op, (e.feed folding here).2, span⟩ :: rest) := by
  unfold feed
  split
  · next o ho => exact .cons ⟨hop, folded_inside ho hp, hspan⟩ hrest
  · exact .append (code_fits e here hp) (.cons (Instr.fits_plain hop hspan) hrest)

end Expr

/-! ## Bodies -/

theorem Binder.Placed.inside {binder : Binder Word} (h : binder.Placed source) :
    (binder.map (·.span)).Inside source := by
  cases binder with
  | item name => exact Span.Covers.inside h
  | pair key value => exact ⟨h.1.inside, h.2.inside⟩

namespace Body

def Includes (key : String) : Body → Prop
  | .done => False
  | .text _ _ rest => rest.Includes key
  | .output _ _ rest => rest.Includes key
  | .cond _ yes rest => yes.Includes key ∨ rest.Includes key
  | .choice _ yes _ no rest => yes.Includes key ∨ no.Includes key ∨ rest.Includes key
  | .loop _ _ body _ rest => body.Includes key ∨ rest.Includes key
  | .inclusion key' _ rest => key' = key ∨ rest.Includes key
  | .set _ _ _ rest => rest.Includes key

theorem code_fits {b : Body} (hp : b.Placed source) (hkeys : ∀ key, b.Includes key → keys key)
    (here : Nat) : (b.code folding here).Fits source keys := by
  induction b generalizing here with
  | done => exact .nil
  | text s span rest ih =>
    rw [code]
    exact .cons (Instr.fits_plain hp.1.inside hp.1.inside) (ih hp.2 hkeys _)
  | output e span rest ih =>
    rw [code_output]
    refine Expr.feed_fits hp.1 ?_ hp.2.1 (ih hp.2.2 hkeys _)
    trivial
  | cond test yes rest ihYes ih =>
    rw [code]
    have hyes := fun here => ihYes hp.2.1 (fun key h => hkeys key (.inl h)) here
    have hrest := fun here => ih hp.2.2 (fun key h => hkeys key (.inr h)) here
    exact .append (.append (Expr.code_fits _ _ hp.1.expr)
      (.cons (Instr.fits_plain trivial hp.1.span) (hyes _))) (hrest _)
  | choice test yes span no rest ihYes ihNo ih =>
    rw [code]
    have hyes := fun here => ihYes hp.2.1 (fun key h => hkeys key (.inl h)) here
    have hno := fun here => ihNo hp.2.2.2.1 (fun key h => hkeys key (.inr (.inl h))) here
    have hrest := fun here => ih hp.2.2.2.2 (fun key h => hkeys key (.inr (.inr h))) here
    exact .append (.append (.append (Expr.code_fits _ _ hp.1.expr)
      (.cons (Instr.fits_plain trivial hp.1.span) (hyes _)))
      (.cons (Instr.fits_plain trivial hp.2.2.1) (hno _))) (hrest _)
  | loop binder part body span rest ihBody ih =>
    rw [code_loop, List.append_assoc]
    have hbody := fun here => ihBody hp.2.2.1 (fun key h => hkeys key (.inl h)) here
    have hrest := fun here => ih hp.2.2.2.2 (fun key h => hkeys key (.inr h)) here
    refine Expr.feed_fits hp.2.1.expr ?_ hp.2.1.span
      (.append (hbody _) (.cons (Instr.fits_plain trivial hp.2.2.2.1) (hrest _)))
    exact hp.1.inside
  | inclusion key span rest ih =>
    rw [code]
    exact .cons (Instr.fits_plain (hkeys key (.inl rfl)) hp.1)
      (ih hp.2 (fun key' h => hkeys key' (.inr h)) _)
  | set path e span rest ih =>
    rw [code_set]
    refine Expr.feed_fits hp.1 ?_ hp.2.1 (ih hp.2.2 hkeys _)
    trivial

/-! ## From tags to bodies -/

def Edge.Includes (key : String) : Edge → Prop
  | .otherwise _ no => no.Includes key
  | _ => False

def Section.Includes (key : String) (s : Section) : Prop :=
  s.body.Includes key ∨ s.edge.Includes key

variable {key : String}

theorem conditional_includes {test : Part} {yes rest : Body} {edge : Edge}
    (h : (conditional test yes edge rest).Includes key) :
    yes.Includes key ∨ edge.Includes key ∨ rest.Includes key := by
  cases edge with
  | otherwise span no => exact h
  | _ => exact h.imp_right .inr

theorem addTag_includes {P : Prop} {t : Tag} {sections : List Section}
    (ht : ∀ place span, t = .inclusion key place span → P)
    (hs : ∀ s ∈ sections, s.Includes key → P) : ∀ s ∈ addTag t sections, s.Includes key → P := by
  unfold addTag
  split
  · rw [List.forall_mem_cons] at hs ⊢
    exact hs
  · rw [List.forall_mem_cons] at hs ⊢
    exact hs
  · rw [List.forall_mem_cons] at hs ⊢
    refine ⟨?_, hs.2⟩
    rintro ((rfl | h) | h)
    · exact ht _ _ rfl
    · exact hs.1 (.inl h)
    · exact hs.1 (.inr h)
  · rw [List.forall_mem_cons] at hs ⊢
    exact hs
  · rw [List.forall_mem_cons]
    exact ⟨nofun, hs⟩
  · rw [List.forall_mem_cons]
    exact ⟨nofun, hs⟩
  · rw [List.forall_mem_cons] at hs ⊢
    refine ⟨?_, hs.2⟩
    rintro (h | h)
    · exact h.elim
    · exact hs.1 (.inl h)
  · rw [List.forall_mem_cons] at hs ⊢
    refine ⟨?_, hs.2⟩
    rintro (h | h)
    · exact h.elim
    · rcases conditional_includes h with h | h | h
      · exact hs.1 (.inl h)
      · exact hs.1 (.inr h)
      · exact h.elim
  · rw [List.forall_mem_cons, List.forall_mem_cons] at hs
    rw [List.forall_mem_cons]
    refine ⟨?_, hs.2.2⟩
    rintro (h | h)
    · rcases conditional_includes h with h | h | h
      · exact hs.1 (.inl h)
      · exact hs.1 (.inr h)
      · exact hs.2.1 (.inl h)
    · exact hs.2.1 (.inr h)
  · rw [List.forall_mem_cons, List.forall_mem_cons] at hs
    rw [List.forall_mem_cons]
    refine ⟨?_, hs.2.2⟩
    rintro ((h | h) | h)
    · exact hs.1 (.inl h)
    · exact hs.2.1 (.inl h)
    · exact hs.2.1 (.inr h)
  · exact hs

theorem ofTags_includes {ts : List Tag} (h : (ofTags ts).Includes key) :
    ∃ place span, Tag.inclusion key place span ∈ ts := by
  have hsections : ∀ s ∈ ts.foldr addTag [⟨.done, .ending⟩], s.Includes key →
      ∃ place span, Tag.inclusion key place span ∈ ts := by
    clear h
    induction ts with
    | nil =>
      intro s hs hkey
      rw [List.mem_singleton.mp hs] at hkey
      rcases hkey with hkey | hkey <;> exact hkey.elim
    | cons t ts ih =>
      refine addTag_includes ?_ ?_
      · rintro place span rfl
        exact ⟨place, span, List.mem_cons_self⟩
      · intro s hs hkey
        obtain ⟨place, span, hmem⟩ := ih s hs hkey
        exact ⟨place, span, List.mem_cons_of_mem t hmem⟩
  unfold ofTags at h
  split at h
  · next s rest hs => exact hsections s (hs ▸ List.mem_cons_self) (.inl h)
  · exact h.elim

end Body

end Stencil

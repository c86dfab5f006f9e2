import Stencil.Proofs.Meaning.Expr
import Stencil.Proofs.Rendering.Steps
/-!
# Bodies that come to the same

A body comes to the same in scopes that are alike and with includes that come to the same. Its outputs
are related at the end as they were at the start, if writing keeps the relation.
-/

namespace Stencil

open Machine

def Output.Kept (R : Output → Output → Prop) : Prop :=
  ∀ o o' s, R o o' → (o.write s).1 = (o'.write s).1 ∧ R (o.write s).2 (o'.write s).2

theorem Output.kept_eq : Output.Kept (· = ·) := by
  rintro o _ s rfl
  exact ⟨rfl, rfl⟩

/-! ## Ends -/

namespace Outcome

/-- The ends are the same, with related outputs. Where the first one ends with an error that is excused,
the second one does not count. -/
inductive Same (R : Output → Output → Prop) (excused : Error → Prop) (S : α → β → Prop) :
    Outcome α → Outcome β → Prop
  | done {a : α} {b : β} : S a b → Same R excused S (.done a) (.done b)
  | failed (h : Halt Error) {out out' : Output} : R out out' →
    Same R excused S (.failed h out) (.failed h out')
  | stuck {out out' : Output} : R out out' → Same R excused S (.stuck out) (.stuck out')
  | excused {e : Error} (out : Output) (o : Outcome β) : excused e →
    Same R excused S (.failed (.raised e) out) o

variable {R : Output → Output → Prop} {excused : Error → Prop} {S : α → β → Prop} {o : Outcome α}
  {o' : Outcome β}

theorem Same.bind {T : γ → δ → Prop} {f : α → Outcome γ} {g : β → Outcome δ}
    (h : o.Same R excused S o') (hfg : ∀ a b, S a b → (f a).Same R excused T (g b)) :
    (o.bind f).Same R excused T (o'.bind g) := by
  cases h with
  | done h => exact hfg _ _ h
  | failed halt h => exact .failed halt h
  | stuck h => exact .stuck h
  | excused out _ h => exact .excused out _ h

theorem Same.orIn (h : o.Same R excused S o') {key : String}
    (hkey : ∀ e, excused e → excused (e.orIn key)) :
    (o.orIn key).Same R excused S (o'.orIn key) := by
  cases h with
  | done h => exact .done h
  | failed _ h => exact .failed _ h
  | stuck h => exact .stuck h
  | excused out _ h => exact .excused out _ (hkey _ h)

theorem Same.eq {o o' : Outcome Output} (h : o.Same (· = ·) excused (· = ·) o')
    (hcounts : ∀ e out, o = .failed (.raised e) out → ¬ excused e) : o = o' := by
  cases h with
  | excused out _ h => exact absurd h (hcounts _ out rfl)
  | done h => rw [h]
  | failed _ h => rw [h]
  | stuck h => rw [h]

end Outcome

/-! ## Bodies -/

namespace Body

variable {R : Output → Output → Prop} {excused : Error → Prop} {layer : Layer} {out out' : Output}

namespace Progress

inductive Same (R : Output → Output → Prop) : Progress → Progress → Prop
  | mk {layer : Layer} {out out' : Output} : R out out' → Same R ⟨layer, out⟩ ⟨layer, out'⟩

theorem ofExcept_same (h : R out out') (x : Except (Halt Error) α) :
    Outcome.Same R excused (· = ·) (ofExcept ⟨layer, out⟩ x) (ofExcept ⟨layer, out'⟩ x) := by
  cases x with
  | ok a => exact .done rfl
  | error halt => exact .failed halt h

theorem write_same (hR : Output.Kept R) (h : R out out') (text : String) :
    Outcome.Same R excused (Same R) (write ⟨layer, out⟩ text) (write ⟨layer, out'⟩ text) := by
  obtain ⟨htaken, hout⟩ := hR out out' text h
  rw [write, write]
  cases hw : out.write text with
  | mk taken o =>
    cases hw' : out'.write text with
    | mk taken' o' =>
      rw [hw, hw'] at htaken hout
      obtain rfl : taken = taken' := htaken
      cases taken with
      | true => exact .done ⟨hout⟩
      | false => exact .failed _ hout

end Progress

variable {c c' : Context} {insert insert' : Insertion}

def Insertion.Same (R : Output → Output → Prop) (excused : Error → Prop)
    (insert insert' : Insertion) (key : String) : Prop :=
  ∀ span layer out out', R out out' →
    (insert key span layer out).Same R excused R (insert' key span layer out')

theorem eachRow_same {f g : Progress → Outcome Progress}
    (hfg : ∀ p p', p.Same R p' → (f p).Same R excused (Progress.Same R) (g p'))
    (frames : List Frame) (parent : Option Value) (index : Nat) (rows : List Row)
    {p p' : Progress} (h : p.Same R p') :
    (eachRow f frames parent index rows p).Same R excused (Progress.Same R)
      (eachRow g frames parent index rows p') := by
  induction rows generalizing index p p' with
  | nil =>
    cases h with
    | mk h => exact .done ⟨h⟩
  | cons row rest ih =>
    cases h with
    | mk h => exact (hfg _ _ ⟨h⟩).bind fun q q' hq => ih (index + 1) hq

theorem eval_same (hR : Output.Kept R) (hc : c.Alike c') {b : Body}
    (hinsert : ∀ key, b.Includes key → Insertion.Same R excused insert insert' key)
    {p p' : Progress} (hp : p.Same R p') :
    (b.eval c insert p).Same R excused (Progress.Same R) (b.eval c' insert' p') := by
  induction b generalizing p p' with
  | done => exact .done hp
  | text s span rest ih =>
    obtain ⟨h⟩ := hp
    exact (Progress.write_same hR h s).bind fun q q' => ih hinsert
  | output e span rest ih =>
    obtain ⟨h⟩ := hp
    rw [eval, eval, e.eval_alike hc]
    refine (Progress.ofExcept_same h _).bind ?_
    rintro v _ rfl
    exact (Progress.write_same hR h v.shown).bind fun q q' => ih hinsert
  | cond test yes rest ihYes ih =>
    obtain ⟨h⟩ := hp
    rw [eval, eval, test.expr.eval_alike hc]
    refine (Progress.ofExcept_same h _).bind ?_
    rintro v _ rfl
    refine Outcome.Same.bind ?_ fun q q' => ih fun key hk => hinsert key (.inr hk)
    split
    · exact ihYes (fun key hk => hinsert key (.inl hk)) ⟨h⟩
    · exact .done ⟨h⟩
  | choice test yes span no rest ihYes ihNo ih =>
    obtain ⟨h⟩ := hp
    rw [eval, eval, test.expr.eval_alike hc]
    refine (Progress.ofExcept_same h _).bind ?_
    rintro v _ rfl
    refine Outcome.Same.bind ?_ fun q q' => ih fun key hk => hinsert key (.inr (.inr hk))
    split
    · exact ihYes (fun key hk => hinsert key (.inl hk)) ⟨h⟩
    · exact ihNo (fun key hk => hinsert key (.inr (.inl hk))) ⟨h⟩
  | loop binder source body span rest ihBody ih =>
    have hrest : ∀ q q', q.Same R q' →
        (rest.eval c insert q).Same R excused (Progress.Same R) (rest.eval c' insert' q') :=
      fun q q' => ih fun key hk => hinsert key (.inr hk)
    obtain ⟨h⟩ := hp
    rw [eval, eval, source.expr.eval_alike hc]
    refine (Progress.ofExcept_same h _).bind ?_
    rintro v _ rfl
    rw [hc.frame?]
    refine (Progress.ofExcept_same h _).bind ?_
    rintro f _ rfl
    cases f with
    | none => exact hrest _ _ ⟨h⟩
    | some f =>
      refine (eachRow_same ?_ _ _ _ _ ⟨h⟩).bind hrest
      exact fun q q' => ihBody fun key hk => hinsert key (.inl hk)
  | inclusion key span rest ih =>
    obtain ⟨h⟩ := hp
    refine (hinsert key (.inl rfl) span _ _ _ h).bind fun out out' h' => ?_
    exact ih (fun key' hk => hinsert key' (.inr hk)) ⟨h'⟩
  | set path e span rest ih =>
    obtain ⟨h⟩ := hp
    rw [eval, eval, e.eval_alike hc]
    refine (Progress.ofExcept_same h _).bind ?_
    rintro v _ rfl
    rw [Layer.set_alike hc.around]
    exact ih hinsert ⟨h⟩

theorem evalAll_same (hR : Output.Kept R) (hc : c.Alike c') {b : Body}
    (hinsert : ∀ key, b.Includes key → Insertion.Same R excused insert insert' key)
    (h : R out out') :
    (b.evalAll c insert out).Same R excused R (b.evalAll c' insert' out') := by
  have hstart : Progress.Same R ⟨.empty, out⟩ ⟨.empty, out'⟩ := ⟨h⟩
  refine (eval_same hR hc hinsert hstart).bind ?_
  rintro _ _ ⟨h'⟩
  exact .done h'

end Body

end Stencil

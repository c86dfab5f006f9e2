import Stencil.Evaluation
import Stencil.Proofs.Writing.Output
/-!
# Work that is steady

Work is steady if it writes the same text and ends in the same way whatever it writes into, and stops
early only at a sink that refuses some of that text. What a page means is steady.
-/

namespace Stencil

open Machine

inductive Verdict (β : Type) where
  | done (b : β)
  | failed (h : Halt Error)
  | stuck

def Verdict.close (pack : β → Output → α) : Verdict β → Output → Outcome α
  | .done b, out => .done (pack b out)
  | .failed h, out => .failed h out
  | .stuck, out => .stuck out

/-- The work writes some text and then comes to a verdict. Where not all of the text is taken, it fails
with an error that says no more than that, but can have got a name on the way. -/
structure Writes (pack : β → Output → α) (text : String) (verdict : Verdict β)
    (f : Output → Outcome α) : Prop where
  taken : ∀ out out', out.write text = (true, out') → f out = verdict.close pack out'
  refused : ∀ out out', out.write text = (false, out') →
    ∃ name, f out = .failed (.raised ⟨.unformatted, none, name⟩) out'

def Steady (pack : β → Output → α) (f : Output → Outcome α) : Prop :=
  ∃ text verdict, Writes pack text verdict f

variable {pack : β → Output → α} {f : Output → Outcome α} {text : String}

namespace Writes

theorem close (verdict : Verdict β) : Writes pack "" verdict (verdict.close pack) := by
  refine ⟨?_, ?_⟩ <;> intro out out' h <;> cases out.write_empty.symm.trans h
  rfl

theorem bind {pack' : δ → Output → γ} {g : α → Outcome γ} {b : β} {text' : String}
    {verdict' : Verdict δ} (hf : Writes pack text (.done b) f)
    (hg : Writes pack' text' verdict' fun out => g (pack b out)) :
    Writes pack' (text ++ text') verdict' fun out => (f out).bind g := by
  refine ⟨fun out out' h => ?_, fun out out' h => ?_⟩
  · rcases Output.write_append_cases h with ⟨out₁, hfront, hback⟩ | ⟨-, htaken⟩
    · rw [hf.taken out out₁ hfront]
      exact hg.taken out₁ out' hback
    · cases htaken
  · rcases Output.write_append_cases h with ⟨out₁, hfront, hback⟩ | ⟨hfront, -⟩
    · rw [hf.taken out out₁ hfront]
      exact hg.refused out₁ out' hback
    · obtain ⟨name, hname⟩ := hf.refused out out' hfront
      exact ⟨name, by rw [hname]; rfl⟩

theorem bind_failed {pack' : δ → Output → γ} {g : α → Outcome γ} {h : Halt Error}
    (hf : Writes pack text (.failed h) f) :
    Writes pack' text (.failed h) fun out => (f out).bind g := by
  refine ⟨fun out out' hout => ?_, fun out out' hout => ?_⟩
  · rw [hf.taken out out' hout]
    rfl
  · obtain ⟨name, hname⟩ := hf.refused out out' hout
    exact ⟨name, by rw [hname]; rfl⟩

theorem bind_stuck {pack' : δ → Output → γ} {g : α → Outcome γ} (hf : Writes pack text .stuck f) :
    Writes pack' text .stuck fun out => (f out).bind g := by
  refine ⟨fun out out' hout => ?_, fun out out' hout => ?_⟩
  · rw [hf.taken out out' hout]
    rfl
  · obtain ⟨name, hname⟩ := hf.refused out out' hout
    exact ⟨name, by rw [hname]; rfl⟩

end Writes

namespace Steady

theorem close (verdict : Verdict β) : Steady pack (verdict.close pack) := ⟨"", verdict, .close verdict⟩

theorem bind {pack' : δ → Output → γ} {g : α → Outcome γ} (hf : Steady pack f)
    (hg : ∀ b, Steady pack' fun out => g (pack b out)) :
    Steady pack' fun out => (f out).bind g := by
  obtain ⟨text, verdict, hf⟩ := hf
  cases verdict with
  | done b =>
    obtain ⟨text', verdict', hg⟩ := hg b
    exact ⟨text ++ text', verdict', hf.bind hg⟩
  | failed h => exact ⟨text, .failed h, hf.bind_failed⟩
  | stuck => exact ⟨text, .stuck, hf.bind_stuck⟩

theorem orIn (hf : Steady pack f) (key : String) : Steady pack fun out => (f out).orIn key := by
  obtain ⟨text, verdict, hf⟩ := hf
  have hrefused : ∀ out out', out.write text = (false, out') →
      ∃ name, (f out).orIn key = .failed (.raised ⟨.unformatted, none, name⟩) out' := by
    intro out out' hout
    obtain ⟨name, hname⟩ := hf.refused out out' hout
    exact ⟨name.or (some key), by rw [hname]; rfl⟩
  have htaken : ∀ out out', out.write text = (true, out') →
      (f out).orIn key = (verdict.close pack out').orIn key := by
    intro out out' hout
    rw [hf.taken out out' hout]
  cases verdict with
  | done b => exact ⟨text, .done b, htaken, hrefused⟩
  | failed h => exact ⟨text, .failed (h.map (Error.orIn · key)), htaken, hrefused⟩
  | stuck => exact ⟨text, .stuck, htaken, hrefused⟩

end Steady

/-! ## Bodies -/

namespace Body

variable {c : Context} {insert : Insertion} {layer : Layer}

namespace Progress

theorem write_steady (layer : Layer) (text : String) :
    Steady Progress.mk fun out => write ⟨layer, out⟩ text := by
  refine ⟨text, .done layer, fun out out' h => ?_, fun out out' h => ⟨none, ?_⟩⟩
  · simp only [write, h]
    rfl
  · simp only [write, h]
    rfl

theorem ofExcept_steady {x : Except (Halt Error) α} {f : α → Output → Outcome Progress}
    (hf : ∀ a, Steady Progress.mk (f a)) :
    Steady Progress.mk fun out => (ofExcept ⟨layer, out⟩ x).bind fun a => f a out := by
  cases x with
  | ok a => exact hf a
  | error h => exact .close (.failed h)

end Progress

open Progress

theorem eachRow_steady {body : Progress → Outcome Progress}
    (hbody : ∀ layer, Steady Progress.mk fun out => body ⟨layer, out⟩) (frames : List Frame)
    (parent : Option Value) (rows : List Row) (index : Nat) (layer : Layer) :
    Steady Progress.mk fun out => eachRow body frames parent index rows ⟨layer, out⟩ := by
  induction rows generalizing index layer with
  | nil => exact .close (.done { layer with frames := frames })
  | cons row rest ih =>
    simp only [eachRow]
    exact (hbody _).bind (ih (index + 1))

/-- What a body means is steady, if what its includes mean is. -/
theorem eval_steady
    (hinsert : ∀ key span layer, Steady (fun _ : Unit => id) (insert key span layer)) (b : Body)
    (layer : Layer) : Steady Progress.mk fun out => b.eval c insert ⟨layer, out⟩ := by
  induction b generalizing layer with simp only [eval]
  | done => exact .close (.done layer)
  | text s span rest ih => exact (write_steady layer s).bind ih
  | output e span rest ih => exact ofExcept_steady fun v => (write_steady layer _).bind ih
  | cond test yes rest ihYes ih =>
    refine ofExcept_steady fun v => Steady.bind ?_ ih
    split
    · exact ihYes layer
    · exact .close (.done layer)
  | choice test yes span no rest ihYes ihNo ih =>
    refine ofExcept_steady fun v => Steady.bind ?_ ih
    split
    · exact ihYes layer
    · exact ihNo layer
  | loop binder source body span rest ihBody ih =>
    refine ofExcept_steady fun v => ofExcept_steady fun f => ?_
    cases f with
    | none => exact ih layer
    | some f => exact (eachRow_steady ihBody _ _ _ 0 layer).bind ih
  | inclusion key span rest ih => exact (hinsert key span layer).bind fun _ => ih layer
  | set path e span rest ih => exact ofExcept_steady fun v => ih _

theorem evalAll_steady
    (hinsert : ∀ key span layer, Steady (fun _ : Unit => id) (insert key span layer)) (b : Body) :
    Steady (fun _ : Unit => id) (b.evalAll c insert) :=
  (eval_steady hinsert b .empty).bind fun _ => .close (.done ())

end Body

/-! ## Pages -/

namespace Renderer

variable {r : Renderer}

theorem eval_steady (r : Renderer) (depth : Nat) (p : Page) (around : Scope) :
    Steady (fun _ : Unit => id) (r.eval depth p around) := by
  induction depth generalizing p around with
  | zero => exact Body.evalAll_steady (fun _ _ _ => .close (.failed _)) _
  | succ depth ih =>
    refine Body.evalAll_steady (fun key span layer => ?_) _
    cases r.page? key with
    | none => exact .close (.failed _)
    | some q => exact (ih q _).orIn key

theorem meaning_steady (r : Renderer) (name : Option String) (p : Page) (data : Value) :
    Steady (fun _ : Unit => id) (r.meaning name p data) := by
  cases name with
  | none => exact r.eval_steady r.limit p ⟨[], data⟩
  | some name => exact (r.eval_steady r.limit p ⟨[], data⟩).orIn name

end Renderer

end Stencil

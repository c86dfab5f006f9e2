import Stencil.Proofs.Including.Source
import Stencil.Proofs.Writing.Body
/-!
# Rendering into a sink

A sink with a limit gets what a sink without one gets, up to the limit. If that is not all of it, the
error of the sink hides any other, in whatever include it was refused.
-/

namespace Stencil

/-- The error is one of the sink, which is no place of a template. -/
structure Error.OfSink (err : Error) (refusal : String) : Prop where
  kind : err.fault.kind = .io
  cause : err.fault.cause = some refusal
  place : err.place = none
  template : err.template = none

theorem Error.unwritten_ofSink (refusal : String) : (Error.ofFault (.unwritten refusal)).OfSink refusal :=
  ⟨rfl, rfl, rfl, rfl⟩

def Verdict.result : Verdict Unit → Except (Halt Error) Unit
  | .done () => .ok ()
  | .failed h => .error h
  | .stuck => .error (.panic .stuck)

namespace Engine

variable {e : Engine} {name : Option String} {t : Template} {data : Value}

theorem renderInto_steady (he : e.Sound) (ht : t.Sound name) (data : Value) :
    Steady (fun _ : Unit => id) (e.renderInto name t data) := by
  have hmeaning : e.renderInto name t data = (e.renderer name t).meaning name t.page data :=
    funext fun out => renderInto_meaning he ht data out
  rw [hmeaning]
  exact Renderer.meaning_steady _ name t.page data

variable {text : String} {verdict : Verdict Unit}

theorem render_of_writes (h : Writes (fun _ : Unit => id) text verdict (e.renderInto name t data)) :
    e.render name t data = verdict.result.map fun () => text := by
  have hwrite : (Output.memory "").write text = (true, .memory text) := by
    rw [Output.write, String.empty_append]
  rw [render, h.taken _ _ hwrite]
  cases verdict <;> rfl

/-- The error of a sink that refuses something takes the place of what it is on its way out. -/
theorem renderTo_of_writes (h : Writes (fun _ : Unit => id) text verdict (e.renderInto name t data))
    (k : Sink) : e.renderTo name t data k = ((k.write text).2,
      if (k.write text).1 then verdict.result else .error (.raised (.ofFault (.unwritten k.refusal)))) := by
  have hrefusal := k.refusal_write text
  unfold renderTo
  rcases hk : k.write text with ⟨_ | _, k'⟩
  · have hwrite : (Output.sink k none).write text = (false, .sink k' (some k'.refusal)) := by
      rw [Output.write, hk]
    obtain ⟨name, hname⟩ := h.refused _ _ hwrite
    rw [hk] at hrefusal
    rw [hname, ← hrefusal]
    rfl
  · have hwrite : (Output.sink k none).write text = (true, .sink k' none) := by
      rw [Output.write, hk]
    rw [h.taken _ _ hwrite]
    cases verdict with
    | done u => rfl
    | failed halt => cases halt <;> rfl
    | stuck => rfl

/-- Where rendering without a limit writes no more than a sink takes, rendering into the sink writes the
same and comes to the same result. Otherwise it writes as much as the sink takes, and the result is the
error of the sink. Rendering to a string gives what is written without a limit. -/
theorem renderTo_limited (he : e.Reached) (ht : e.Offers name t) {refusal : String} {whole : Sink}
    {result : Except (Halt Error) Unit}
    (hwhole : e.renderTo name t data (.unlimited refusal) = (whole, result)) :
    (∀ m refusal, whole.bytes.length ≤ m →
      (e.renderTo name t data (.limited m refusal)).1.bytes = whole.bytes ∧
        (e.renderTo name t data (.limited m refusal)).2 = result) ∧
    (∀ m refusal, m < whole.bytes.length →
      (e.renderTo name t data (.limited m refusal)).1.bytes = whole.bytes.take m ∧
        ∃ err, (e.renderTo name t data (.limited m refusal)).2 = .error (.raised err) ∧
          err.OfSink refusal) ∧
    (∀ s, e.render name t data = .ok s ↔ result = .ok () ∧ whole.bytes = s.toUTF8.toList) ∧
    ∀ halt, e.render name t data = .error halt ↔ result = .error halt := by
  obtain ⟨text, verdict, h⟩ := renderInto_steady he.sound (he.sound_of_offers ht) data
  have hunlimited : (Sink.unlimited refusal).write text = (true, ⟨text, [], none, refusal⟩) := by
    simp [Sink.write, Sink.unlimited]
  rw [renderTo_of_writes h, hunlimited, if_pos rfl] at hwhole
  obtain ⟨rfl, rfl⟩ := Prod.mk.inj hwhole
  have hbytes : Sink.bytes ⟨text, [], none, refusal⟩ = encoded text.toList := by simp [Sink.bytes_eq]
  rw [hbytes]
  refine ⟨fun m refusal' hm => ?_, fun m refusal' hm => ?_, fun s => ?_, fun halt => ?_⟩
  · obtain ⟨htaken, hall⟩ := Sink.bytes_limited m refusal' text
    rw [renderTo_of_writes h, htaken, if_pos (hall.mpr hm), List.take_of_length_le hm]
    exact ⟨rfl, rfl⟩
  · obtain ⟨htaken, hall⟩ := Sink.bytes_limited m refusal' text
    rw [renderTo_of_writes h, htaken, if_neg (mt hall.mp (Nat.not_le.mpr hm))]
    exact ⟨rfl, _, rfl, Error.unwritten_ofSink refusal'⟩
  · rw [render_of_writes h, bytes_toUTF8]
    cases verdict.result with
    | error halt => simp
    | ok u => simp [encoded_inj]
  · rw [render_of_writes h]
    cases verdict.result with
    | error halt' => simp
    | ok u => simp

/-- The template "b" writes a byte in what it includes, and a sink without room refuses it. -/
theorem stacked_limited : stacked.Reached ∧
    stacked.Offers (some "b") ⟨loopPage, [("a", digitPage "1")]⟩ ∧
    stacked.renderTo (some "b") ⟨loopPage, [("a", digitPage "1")]⟩ .null (.unlimited "") =
      (⟨"1", [], none, ""⟩, .ok ()) ∧
    (stacked.renderTo (some "b") ⟨loopPage, [("a", digitPage "1")]⟩ .null
      (.limited 0 "no room")).1.bytes = [] ∧
    ∃ err, (stacked.renderTo (some "b") ⟨loopPage, [("a", digitPage "1")]⟩ .null
      (.limited 0 "no room")).2 = .error (.raised err) ∧ err.OfSink "no room" := by
  have hoffers : stacked.Offers (some "b") ⟨loopPage, [("a", digitPage "1")]⟩ := .registered rfl
  have hwhole : stacked.renderTo (some "b") ⟨loopPage, [("a", digitPage "1")]⟩ .null (.unlimited "") =
      (⟨"1", [], none, ""⟩, .ok ()) := by
    rw [renderTo, renderInto_meaning stacked_reached.sound
      (stacked_reached.sound_of_offers hoffers) .null (.sink (.unlimited "") none)]
    rfl
  have hlong : 0 < (Sink.bytes ⟨"1", [], none, ""⟩).length := by
    simp [Sink.bytes_eq, Char.utf8Size_pos]
  exact ⟨stacked_reached, hoffers, hwhole,
    (renderTo_limited stacked_reached hoffers hwhole).2.1 0 "no room" hlong⟩

end Engine

end Stencil

import Stencil.Proofs.Safety.Expr
import Stencil.Proofs.Simulation.Body
/-!
# The code of a body leaves nothing behind

Wherever the code of a body stands, a rendering that comes to its start ends, if it ends behind the
code with the same values on the stack, the same loops, and any locals and output.
-/

namespace Stencil

open Machine Body

namespace Renderer

variable {r : Renderer} {data : Value} {s : Rendering} {folding pageFolding : Bool}

/-- That a rendering which enters another page ends, if it ends back behind the include. -/
def Returns (r : Renderer) (data : Value) (s : Rendering) : Prop :=
  ∀ (place : Nat) (key : String) (m : Machine.State),
    (∀ out, r.Ends data (s.goTo (place + 1) { m with out := out })) →
    ∀ s', r.Entering (s.goTo place m) key s' → r.Ends data s'

/-- That the code of a body keeps the values on the stack and the loops. -/
def Keeps (r : Renderer) (data : Value) (s : Rendering) (folding : Bool) (b : Body) : Prop :=
  ∀ (here : Nat) (m : Machine.State),
    Code.At (r.program s.current.page) here (b.code folding here) →
    (∀ p : Progress, p.layer.frames = m.layer.frames →
      r.Ends data (s.goTo (here + (b.code folding here).length) (m.after p))) →
    r.Ends data (s.goTo here m)

/-- The rounds of a loop from the one that `row` is for. Every round uses up a row. -/
theorem ends_rounds (hs : r.Ready pageFolding s.current.page) {body : Body}
    (hbody : r.Keeps data s folding body) {start : Nat} {span : Span}
    (h : Code.At (r.program s.current.page) start (body.code folding start))
    (hnext : (r.program s.current.page)[start + (body.code folding start).length]? =
      some (.plain (.loopNext start) span))
    (frames : List Frame) (parent : Option Value) (m : Machine.State)
    (hk : ∀ p : Progress, p.layer.frames = frames →
      r.Ends data (s.goTo (start + (body.code folding start).length + 1) (m.after p)))
    (row : Row) (upcoming : List Row) (index : Nat) (p : Progress) :
    r.Ends data (s.goTo start (m.after
      { p with layer := { p.layer with frames := ⟨row, upcoming, index, parent⟩ :: frames } })) := by
  induction upcoming generalizing row index p with
  | nil =>
    refine hbody start _ h fun q hq => ?_
    refine ends_goTo hs hnext fun functions => ?_
    obtain ⟨⟨fs, locals⟩, out⟩ := q
    obtain rfl : fs = _ := hq
    exact hk ⟨⟨frames, locals⟩, out⟩ rfl
  | cons row' upcoming ih =>
    refine hbody start _ h fun q hq => ?_
    refine ends_goTo hs hnext fun functions => ?_
    obtain ⟨⟨fs, locals⟩, out⟩ := q
    obtain rfl : fs = _ := hq
    exact ih row' (index + 1) ⟨⟨_, locals⟩, out⟩

theorem keeps_cond (hs : r.Ready pageFolding s.current.page) {test : Part} {yes rest : Body}
    (htest : test.expr.Placed s.current.page.source.toList) (hyes : r.Keeps data s folding yes)
    (hrest : r.Keeps data s folding rest) : r.Keeps data s folding (.cond test yes rest) := by
  intro here m h hk
  rw [Body.code] at h hk
  have hafter := h.right.moved _ (Code.place_cons ..)
  simp only [Code.place_append] at hk
  refine ends_code hs test.expr htest here m h.left.left fun v => ?_
  refine ends_goTo hs h.left.last fun functions => ?_
  by_cases hv : v.truthy
  · simp only [exec, Instr.plain, State.fetch, State.pop_push, Outcome.bind_done, if_pos hv]
    refine hyes _ m h.left.right.tail fun p hp => ?_
    exact hrest _ (m.after p) hafter fun q hq => hk q (hq.trans hp)
  · simp only [exec, Instr.plain, State.fetch, State.pop_push, Outcome.bind_done, if_neg hv]
    exact hrest _ m hafter hk

theorem keeps_choice (hs : r.Ready pageFolding s.current.page) {test : Part} {yes no rest : Body}
    {span : Span} (htest : test.expr.Placed s.current.page.source.toList)
    (hyes : r.Keeps data s folding yes) (hno : r.Keeps data s folding no)
    (hrest : r.Keeps data s folding rest) :
    r.Keeps data s folding (.choice test yes span no rest) := by
  intro here m h hk
  rw [Body.code] at h hk
  have hother := h.left.right.moved _ (Code.place_cons ..)
  have hafter := h.right.moved _ (Code.place_append_cons ..)
  simp only [Code.place_append_append] at hk
  refine ends_code hs test.expr htest here m h.left.left.left fun v => ?_
  refine ends_goTo hs h.left.left.last fun functions => ?_
  by_cases hv : v.truthy
  · simp only [exec, Instr.plain, State.fetch, State.pop_push, Outcome.bind_done, if_pos hv]
    refine hyes _ m h.left.left.right.tail fun p hp => ?_
    -- The end of the first branch jumps over the second one.
    refine ends_goTo hs hother.head fun functions => ?_
    exact hrest _ (m.after p) hafter fun q hq => hk q (hq.trans hp)
  · simp only [exec, Instr.plain, State.fetch, State.pop_push, Outcome.bind_done, if_neg hv]
    refine hno _ m hother.tail fun p hp => ?_
    exact hrest _ (m.after p) hafter fun q hq => hk q (hq.trans hp)

theorem keeps_loop (hs : r.Ready pageFolding s.current.page) {binder : Binder Word} {source : Part}
    {body rest : Body} {span : Span} (hbinder : binder.Placed s.current.page.source.toList)
    (hsource : source.expr.Placed s.current.page.source.toList)
    (hbody : r.Keeps data s folding body) (hrest : r.Keeps data s folding rest) :
    r.Keeps data s folding (.loop binder source body span rest) := by
  intro here m h hk
  rw [Body.code_loop] at h hk
  have hnext := h.right.moved _ (Code.place_cons ..)
  simp only [Code.place_append_cons] at hk
  have hnames : ∀ functions,
      ((r.withFunctions functions).contextAt data s).binder? (binder.map (·.span)) = some binder :=
    fun functions => Context.binder?_of_placed hbinder
  refine ends_feed hs (ends_code hs source.expr hsource) hsource (fun functions x =>
      (x.2.ofExcept (((r.withFunctions functions).contextAt data s).frame? x.2.layer binder x.1
        source.span)).bind fun f => .done (Move.enter x.2 _ f))
    (by intro functions o m; simp only [exec, hnames, State.demand_some, Outcome.bind_done]; rfl)
    h.left.front m fun functions v => ?_
  refine .bind (Outcome.safe_ofExcept fun f => ?_)
  cases f with
  | none => exact hrest _ m hnext.tail hk
  | some f =>
    obtain ⟨row, upcoming, index, parent⟩ := f
    refine ends_rounds hs hbody h.left.right.tail hnext.head m.layer.frames parent m ?_ row upcoming
      index m.progress
    intro p hp
    exact hrest _ (m.after p) hnext.tail fun q hq => hk q (hq.trans hp)

theorem ends_body (hs : r.Ready pageFolding s.current.page) (hreturns : r.Returns data s) {b : Body}
    (hp : b.Placed s.current.page.source.toList) : r.Keeps data s folding b := by
  induction b with
  | done =>
    intro here m h hk
    exact hk m.progress rfl
  | text t span rest ih =>
    intro here m h hk
    rw [Body.code] at h hk
    rw [List.length_cons, Nat.add_comm _ 1, ← Nat.add_assoc] at hk
    refine ends_goTo hs h.head fun functions => ?_
    have htext : ((r.withFunctions functions).contextAt data s).text? span = some t :=
      Context.text?_of_covers hp.1
    simp only [exec, Instr.plain, htext, State.demand_some, Outcome.bind_done]
    refine .bind (Outcome.safe_write fun out => ?_)
    exact ih hp.2 _ { m with out := out } h.tail hk
  | output e span rest ih =>
    intro here m h hk
    rw [Body.code_output] at h hk
    rw [Code.place_cons] at hk
    refine ends_feed hs (ends_code hs e hp.1) hp.1
      (fun functions x => (x.2.write x.1.shown).bind fun m => .done (.next m))
      (fun functions o m => rfl) h.front m fun functions v => ?_
    refine .bind (Outcome.safe_write fun out => ?_)
    exact ih hp.2.2 _ { m with out := out } h.back hk
  | cond test yes rest ihYes ih => exact keeps_cond hs hp.1.expr (ihYes hp.2.1) (ih hp.2.2)
  | choice test yes span no rest ihYes ihNo ih =>
    exact keeps_choice hs hp.1.expr (ihYes hp.2.1) (ihNo hp.2.2.2.1) (ih hp.2.2.2.2)
  | loop binder source body span rest ihBody ih =>
    exact keeps_loop hs hp.1 hp.2.1.expr (ihBody hp.2.2.1) (ih hp.2.2.2.2)
  | inclusion key span rest ih =>
    intro here m h hk
    rw [Body.code] at h hk
    rw [List.length_cons, Nat.add_comm _ 1, ← Nat.add_assoc] at hk
    refine ends_goTo hs h.head fun functions => ?_
    refine hreturns here key m fun out => ?_
    exact ih hp.2 _ { m with out := out } h.tail hk
  | set path e span rest ih =>
    intro here m h hk
    rw [Body.code_set] at h hk
    rw [Code.place_cons] at hk
    refine ends_feed hs (ends_code hs e hp.1) hp.1
      (fun functions x => .done (.next { x.2 with layer := x.2.layer.set _ path x.1 }))
      (fun functions o m => rfl) h.front m fun functions v => ?_
    refine ih hp.2.2 _ { m with layer := m.layer.set _ path v } h.back fun p hp => ?_
    exact hk p (hp.trans (Layer.frames_set ..))

end Renderer

end Stencil

import Stencil.Proofs.Scoping.Assignment
import Stencil.Proofs.Simulation.Expr
/-!
# The code of a body does what the body means

Wherever the code of a body stands in the program of the current page, a rendering that comes to its
start goes on behind it with the layer and the output that the body leaves, or ends the way the body
does. A loop leaves the loops around it as they were.
-/

namespace Stencil

open Machine Body

/-! ## Layers and output -/

namespace Machine.State

variable {m : State}

def progress (m : State) : Progress := ⟨m.layer, m.out⟩

def after (m : State) (p : Progress) : State := ⟨m.stack, p.layer, p.out⟩

@[simp] theorem progress_layer : m.progress.layer = m.layer := rfl
@[simp] theorem progress_out : m.progress.out = m.out := rfl
@[simp] theorem progress_after (p : Progress) : (m.after p).progress = p := rfl
@[simp] theorem progress_ofExcept_ok (p : Progress) (a : α) : p.ofExcept (.ok a) = .done a := rfl

theorem write_eq (text : String) :
    m.write text = (m.progress.write text).bind fun p => .done (m.after p) := by
  simp only [write, Progress.write, progress]
  rcases m.out.write text with ⟨_ | _, out⟩ <;> rfl

end Machine.State

/-! ## Active loops -/

theorem Machine.Context.index_frame? {c : Context} {l : Layer} {binder : Binder Word} {v : Value}
    {span : Span} {f : Frame} (h : c.frame? l binder v span = .ok (some f)) : f.index = 0 := by
  unfold frame? at h
  split at h <;> cases h
  rfl

namespace Body

variable {c : Context} {insert : Insertion}

theorem Progress.frames_write {p q : Progress} {text : String} (h : p.write text = .done q) :
    q.layer.frames = p.layer.frames := by
  unfold Progress.write at h
  split at h <;> cases h
  rfl

theorem frames_eachRow {body : Progress → Outcome Progress} {frames : List Frame}
    {parent : Option Value} {rows : List Row} {index : Nat} {p q : Progress}
    (h : eachRow body frames parent index rows p = .done q) : q.layer.frames = frames := by
  induction rows generalizing index p with
  | nil =>
    rw [eachRow] at h
    cases h
    rfl
  | cons row rest ih =>
    obtain ⟨q', -, h⟩ := Outcome.done_of_bind h
    exact ih h

theorem frames_eval {b : Body} {p q : Progress} (h : b.eval c insert p = .done q) :
    q.layer.frames = p.layer.frames := by
  induction b generalizing p q with
  | done =>
    rw [eval] at h
    cases h
    rfl
  | text t span rest ih =>
    obtain ⟨p', hp, h⟩ := Outcome.done_of_bind h
    rw [ih h, Progress.frames_write hp]
  | output e span rest ih =>
    obtain ⟨v, -, h⟩ := Outcome.done_of_bind h
    obtain ⟨p', hp, h⟩ := Outcome.done_of_bind h
    rw [ih h, Progress.frames_write hp]
  | cond test yes rest ihYes ih =>
    obtain ⟨v, -, h⟩ := Outcome.done_of_bind h
    obtain ⟨p', hp, h⟩ := Outcome.done_of_bind h
    rw [ih h]
    split at hp
    · exact ihYes hp
    · cases hp; rfl
  | choice test yes span no rest ihYes ihNo ih =>
    obtain ⟨v, -, h⟩ := Outcome.done_of_bind h
    obtain ⟨p', hp, h⟩ := Outcome.done_of_bind h
    rw [ih h]
    split at hp
    · exact ihYes hp
    · exact ihNo hp
  | loop binder source body span rest _ ih =>
    obtain ⟨v, -, h⟩ := Outcome.done_of_bind h
    obtain ⟨f, -, h⟩ := Outcome.done_of_bind h
    cases f with
    | none => exact ih h
    | some f =>
      obtain ⟨p', hp, h⟩ := Outcome.done_of_bind h
      rw [ih h, frames_eachRow hp]
  | inclusion key span rest ih =>
    obtain ⟨out, -, h⟩ := Outcome.done_of_bind h
    rw [ih h]
  | set path e span rest ih =>
    obtain ⟨v, -, h⟩ := Outcome.done_of_bind h
    rw [ih h, Layer.frames_set]

end Body

theorem Machine.Context.binder?_of_placed {c : Context} {binder : Binder Word}
    (h : binder.Placed c.source.toList) : c.binder? (binder.map (·.span)) = some binder := by
  cases binder with
  | item name =>
    rw [Binder.map, binder?, text?_of_covers h]
    rfl
  | pair key value =>
    rw [Binder.map, binder?, text?_of_covers h.1, text?_of_covers h.2]
    rfl

/-! ## The code of a body -/

namespace Renderer

variable {r : Renderer} {data : Value} {s : Rendering} {folding : Bool} {insert : Insertion}

/-- That entering an included page and coming back does what the include means. -/
def Inserts (r : Renderer) (data : Value) (s : Rendering) (insert : Insertion) : Prop :=
  ∀ (place : Nat) (key : String) (span : Span) (m : Machine.State),
    r.finishTurn data (r.enter (s.goTo place m) key span) =
      r.finishAt data s (place + 1)
        ((insert key span m.layer m.out).bind fun out => .done { m with out := out })

/-- That the code of a body does what the body means. -/
def Performs (r : Renderer) (data : Value) (s : Rendering) (folding : Bool) (insert : Insertion)
    (b : Body) : Prop :=
  ∀ (here : Nat) (m : Machine.State),
    Code.At (r.program s.current.page) here (b.code folding here) →
    r.finish data (s.goTo here m) =
      r.finishAt data s (here + (b.code folding here).length)
        ((b.eval (r.contextAt data s) insert m.progress).bind fun p => .done (m.after p))

theorem finishAt_rest {rest : Body} (hrest : r.Performs data s folding insert rest) {here : Nat}
    (h : Code.At (r.program s.current.page) here (rest.code folding here)) (m : Machine.State)
    (o : Outcome Progress) :
    r.finishAt data s here (o.bind fun p => .done (m.after p)) =
      r.finishAt data s (here + (rest.code folding here).length)
        ((o.bind (rest.eval (r.contextAt data s) insert)).bind fun p => .done (m.after p)) := by
  cases o with
  | done p => exact hrest here (m.after p) h
  | _ => rfl

/-- The rounds of a loop from the one that `row` is for. The frame of the loop is on top all the time,
because the body leaves the loops as they were. -/
theorem finish_rounds {body : Body} (hbody : r.Performs data s folding insert body) {start : Nat}
    {span : Span} (h : Code.At (r.program s.current.page) start (body.code folding start))
    (hnext : (r.program s.current.page)[start + (body.code folding start).length]? =
      some (.plain (.loopNext start) span))
    (frames : List Frame) (parent : Option Value) (m : Machine.State) (row : Row)
    (upcoming : List Row) (index : Nat) (p : Progress) :
    r.finish data (s.goTo start (m.after
        { p with layer := { p.layer with frames := ⟨row, upcoming, index, parent⟩ :: frames } })) =
      r.finishAt data s (start + (body.code folding start).length + 1)
        ((eachRow (body.eval (r.contextAt data s) insert) frames parent index (row :: upcoming) p).bind
          fun p => .done (m.after p)) := by
  induction upcoming generalizing row index p with
  | nil =>
    rw [hbody start _ h, State.progress_after, eachRow]
    cases hq : body.eval (r.contextAt data s) insert
        { p with layer := { p.layer with frames := ⟨row, [], index, parent⟩ :: frames } } with
    | done q =>
      obtain ⟨⟨fs, locals⟩, out⟩ := q
      obtain rfl : fs = _ := frames_eval hq
      exact finish_next hnext (.done _) rfl
    | _ => rfl
  | cons row' upcoming ih =>
    rw [hbody start _ h, State.progress_after, eachRow]
    cases hq : body.eval (r.contextAt data s) insert
        { p with layer := { p.layer with frames := ⟨row, row' :: upcoming, index, parent⟩ :: frames } } with
    | done q =>
      obtain ⟨⟨fs, locals⟩, out⟩ := q
      obtain rfl : fs = _ := frames_eval hq
      refine (finish_goTo hnext).trans ?_
      exact ih row' (index + 1) ⟨⟨_, locals⟩, out⟩
    | _ => rfl

theorem finish_cond {test : Part} {yes rest : Body}
    (htest : test.expr.Placed s.current.page.source.toList)
    (hyes : r.Performs data s folding insert yes) (hrest : r.Performs data s folding insert rest) :
    r.Performs data s folding insert (.cond test yes rest) := by
  intro here m h
  rw [Body.code] at h ⊢
  have hafter := h.right.moved _ (Code.place_cons ..)
  rw [finish_code test.expr htest here m h.left.left, Body.eval, Code.place_append,
    State.progress_layer]
  cases test.expr.eval (r.contextAt data s) m.layer with
  | error err => rfl
  | ok v =>
    have hstep : r.finish data (s.goTo _ (m.push v)) = _ := finish_goTo h.left.last
    refine hstep.trans ?_
    simp only [State.progress_ofExcept_ok, Outcome.bind_done]
    rw [← finishAt_rest hrest hafter]
    by_cases hv : v.truthy
    · simp only [exec, Instr.plain, State.fetch, State.pop_push, Outcome.bind_done, if_pos hv]
      exact hyes _ m h.left.right.tail
    · simp only [exec, Instr.plain, State.fetch, State.pop_push, Outcome.bind_done, if_neg hv]
      rfl

theorem finish_choice {test : Part} {yes no rest : Body} {span : Span}
    (htest : test.expr.Placed s.current.page.source.toList)
    (hyes : r.Performs data s folding insert yes) (hno : r.Performs data s folding insert no)
    (hrest : r.Performs data s folding insert rest) :
    r.Performs data s folding insert (.choice test yes span no rest) := by
  intro here m h
  rw [Body.code] at h ⊢
  have hother := h.left.right.moved _ (Code.place_cons ..)
  have hafter := h.right.moved _ (Code.place_append_cons ..)
  rw [finish_code test.expr htest here m h.left.left.left, Body.eval, Code.place_append_append,
    State.progress_layer]
  cases test.expr.eval (r.contextAt data s) m.layer with
  | error err => rfl
  | ok v =>
    have hstep : r.finish data (s.goTo _ (m.push v)) = _ := finish_goTo h.left.left.last
    refine hstep.trans ?_
    simp only [State.progress_ofExcept_ok, Outcome.bind_done]
    rw [← finishAt_rest hrest hafter]
    by_cases hv : v.truthy
    · simp only [exec, Instr.plain, State.fetch, State.pop_push, Outcome.bind_done, if_pos hv]
      refine (hyes _ m h.left.left.right.tail).trans ?_
      -- The end of the first branch jumps over the second one.
      cases yes.eval (r.contextAt data s) insert m.progress with
      | done p => exact finish_goTo hother.head
      | _ => rfl
    · simp only [exec, Instr.plain, State.fetch, State.pop_push, Outcome.bind_done, if_neg hv]
      exact hno _ m hother.tail

theorem finish_loop {binder : Binder Word} {source : Part} {body rest : Body} {span : Span}
    (hbinder : binder.Placed s.current.page.source.toList)
    (hsource : source.expr.Placed s.current.page.source.toList)
    (hbody : r.Performs data s folding insert body)
    (hrest : r.Performs data s folding insert rest) :
    r.Performs data s folding insert (.loop binder source body span rest) := by
  intro here m h
  rw [Body.code_loop] at h ⊢
  have hnext := h.right.moved _ (Code.place_cons ..)
  have hnames : (r.contextAt data s).binder? (binder.map (·.span)) = some binder :=
    Context.binder?_of_placed hbinder
  rw [finish_feed (finish_code source.expr hsource) hsource (fun x =>
      (x.2.ofExcept ((r.contextAt data s).frame? x.2.layer binder x.1 source.span)).bind fun f =>
        .done (Move.enter x.2 _ f))
    (by intro o m; simp only [exec, hnames, State.demand_some, Outcome.bind_done]; rfl)
    h.left.front m, State.feed, Body.eval, State.progress_layer, Code.place_append_cons]
  cases source.expr.eval (r.contextAt data s) m.layer with
  | error err => rfl
  | ok v =>
    simp only [State.ofExcept_ok, State.progress_ofExcept_ok, Outcome.bind_done]
    cases hf : (r.contextAt data s).frame? m.layer binder v source.span with
    | error err => rfl
    | ok frame =>
      simp only [State.ofExcept_ok, State.progress_ofExcept_ok, Outcome.bind_done]
      cases frame with
      | none => exact hrest _ m hnext.tail
      | some f =>
        rw [← finishAt_rest hrest hnext.tail]
        obtain ⟨row, upcoming, index, parent⟩ := f
        obtain rfl : index = 0 := Context.index_frame? hf
        exact finish_rounds hbody h.left.right.tail hnext.head m.layer.frames parent m row upcoming 0
          m.progress

theorem finish_body (hinsert : r.Inserts data s insert) {b : Body}
    (hp : b.Placed s.current.page.source.toList) : r.Performs data s folding insert b := by
  induction b with
  | done =>
    intro here m h
    rfl
  | text t span rest ih =>
    intro here m h
    rw [Body.code] at h ⊢
    have htext : (r.contextAt data s).text? span = some t := Context.text?_of_covers hp.1
    have hexec : exec (r.contextAt data s) (.plain (.text span) span) m =
        (m.write t).bind fun m => .done (.next m) := by
      simp only [exec, Instr.plain, htext, State.demand_some, Outcome.bind_done]
    rw [finish_next h.head (m.write t) hexec, State.write_eq, finishAt_rest (ih hp.2) h.tail,
      Body.eval, List.length_cons, Nat.add_assoc, Nat.add_comm 1]
  | output e span rest ih =>
    intro here m h
    rw [Body.code_output] at h ⊢
    rw [finish_feed (finish_code e hp.1) hp.1
      (fun x => (x.2.write x.1.shown).bind fun m => .done (.next m)) (fun o m => rfl) h.front m,
      State.feed, Body.eval, State.progress_layer, Code.place_cons]
    cases e.eval (r.contextAt data s) m.layer with
    | error err => rfl
    | ok v =>
      simp only [State.ofExcept_ok, State.progress_ofExcept_ok, Outcome.bind_done]
      rw [finishTurn_next, State.write_eq, finishAt_rest (ih hp.2.2) h.back]
  | cond test yes rest ihYes ih => exact finish_cond hp.1.expr (ihYes hp.2.1) (ih hp.2.2)
  | choice test yes span no rest ihYes ihNo ih =>
    exact finish_choice hp.1.expr (ihYes hp.2.1) (ihNo hp.2.2.2.1) (ih hp.2.2.2.2)
  | loop binder source body span rest ihBody ih =>
    exact finish_loop hp.1 hp.2.1.expr (ihBody hp.2.2.1) (ih hp.2.2.2.2)
  | inclusion key span rest ih =>
    intro here m h
    rw [Body.code] at h ⊢
    rw [finish_goTo h.head]
    refine (hinsert here key span m).trans ?_
    rw [Body.eval, State.progress_layer, State.progress_out, List.length_cons]
    cases insert key span m.layer m.out with
    | done out =>
      refine (ih hp.2 (here + 1) { m with out := out } h.tail).trans ?_
      rw [Nat.add_assoc, Nat.add_comm 1]
      rfl
    | _ => rfl
  | set path e span rest ih =>
    intro here m h
    rw [Body.code_set] at h ⊢
    rw [finish_feed (finish_code e hp.1) hp.1
      (fun x => .done (.next { x.2 with layer := x.2.layer.set _ path x.1 })) (fun o m => rfl)
      h.front m, State.feed, Body.eval, State.progress_layer, Code.place_cons]
    cases e.eval (r.contextAt data s) m.layer with
    | error err => rfl
    | ok v => exact ih hp.2.2 _ { m with layer := m.layer.set _ path v } h.back

end Renderer

end Stencil

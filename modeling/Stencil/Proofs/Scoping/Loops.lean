import Stencil.Proofs.Including.Direct
import Stencil.Proofs.Safety.Engine
/-!
# Records of loops

The record of a loop holds a copy of the record of the loop around it, made when the inner loop begins.
The copy is never out of date: a loop does not move on while another one runs inside of it, be it in an
included template. To say what a record should tell, the active loops of a rendering are counted apart
from its frames, by the instructions that are carried out.
-/

namespace Stencil

open Machine

/-! ## Counting loops -/

def Value.entries : Value → Nat
  | .array items => items.length
  | .object fields => fields.length
  | _ => 0

/-- An active loop: the number of rounds behind it, and of all of its rounds. -/
structure Loop where
  index : Nat
  length : Nat

namespace Loop

def enter (n : Nat) (loops : List Loop) : List Loop := if n = 0 then loops else ⟨0, n⟩ :: loops

def turn : List Loop → List Loop
  | [] => []
  | l :: rest => if l.index + 1 < l.length then { l with index := l.index + 1 } :: rest else rest

/-- The active loops after an instruction. -/
def after (c : Context) (i : Instr) (m : State) (loops : List Loop) : List Loop :=
  match i.op with
  | .loopStart _ _ =>
    match m.fetch c i.operand with
    | .done (v, _) => enter v.entries loops
    | _ => loops
  | .loopNext _ => turn loops
  | _ => loops

end Loop

namespace Renderer

def loopsAfter (r : Renderer) (data : Value) (s : Rendering) (loops : List Loop) : List Loop :=
  match (r.program s.current.page)[s.current.place]? with
  | none => loops
  | some i => Loop.after (r.contextAt data s) i s.machine loops

/-- That steps lead from one state to another in which these loops are active. The callbacks may behave
differently in each step. -/
inductive Watched (r : Renderer) (data : Value) (s : Rendering) : Rendering → List Loop → Prop
  | start : Watched r data s s []
  | step {s' s'' : Rendering} {loops : List Loop} (functions : Registry) : Watched r data s s' loops →
    (r.withFunctions functions).step data s' = .going s'' →
      Watched r data s s'' ((r.withFunctions functions).loopsAfter data s' loops)

variable {r : Renderer} {data : Value} {s s' : Rendering} {loops : List Loop}

theorem Reaches.watched (h : r.Reaches data s s') : ∃ loops, r.Watched data s s' loops := by
  induction h with
  | refl => exact ⟨[], .start⟩
  | step _ hm ih =>
    obtain ⟨loops, hw⟩ := ih
    obtain ⟨functions, hstep⟩ := hm
    exact ⟨_, .step functions hw hstep⟩

theorem Watched.reaches (h : r.Watched data s s' loops) : r.Reaches data s s' := by
  induction h with
  | start => exact .refl
  | step functions _ hstep ih => exact .step ih ⟨functions, hstep⟩

end Renderer

/-! ## Frames -/

def Frame.loop (f : Frame) : Loop := ⟨f.index, f.length⟩

def Nested : List Frame → Prop
  | [] => True
  | f :: rest => f.parent = rest.head?.map (·.loopRecord) ∧ Nested rest

/-- The frames are those of the loops. -/
structure Counted (frames : List Frame) (loops : List Loop) : Prop where
  loops : frames.map (·.loop) = loops
  nested : Nested frames

theorem Scope.loopRecord?_eq (s : Scope) :
    s.loopRecord? = (s.layers.flatMap (·.frames)).head?.map (·.loopRecord) := by
  obtain ⟨layers, data⟩ := s
  induction layers with
  | nil => rfl
  | cons l layers ih =>
    rw [loopRecord?] at ih ⊢
    rw [List.findSome?_cons, List.flatMap_cons, List.head?_append]
    cases hframes : l.frames.head? with
    | some f => rfl
    | none => exact ih

namespace Counted

variable {frames : List Frame} {loops : List Loop}

theorem enter (h : Counted frames loops) (row : Row) (rest : List Row) :
    Counted (⟨row, rest, 0, frames.head?.map (·.loopRecord)⟩ :: frames)
      (Loop.enter (row :: rest).length loops) := by
  refine ⟨?_, rfl, h.nested⟩
  rw [List.map_cons, h.loops, Loop.enter, if_neg (by simp), Frame.loop, Frame.length, List.length_cons,
    Nat.zero_add, Nat.add_comm]

theorem turn {f : Frame} (h : Counted (f :: frames) loops) :
    Counted ((f.advance?).toList ++ frames) (Loop.turn loops) := by
  obtain ⟨row, upcoming, index, parent⟩ := f
  obtain ⟨rfl, hparent, hnested⟩ := h
  rw [List.map_cons, Loop.turn]
  cases upcoming with
  | nil =>
    rw [if_neg (by simp [Frame.loop, Frame.length])]
    exact ⟨rfl, hnested⟩
  | cons row' upcoming =>
    rw [if_pos (by simp [Frame.loop, Frame.length])]
    refine ⟨?_, hparent, hnested⟩
    simp [Frame.advance?, Frame.loop, Frame.length]
    omega

end Counted

/-! ## Instructions -/

namespace Binder

theorem length_rows {b : Binder Word} {v : Value} {rows : List Row} (h : b.rows v = .ok rows) :
    rows.length = v.entries := by
  unfold Binder.rows at h
  split at h <;> cases h <;> simp [Value.entries]

end Binder

namespace Machine

def Move.state : Move → State
  | .next m | .jump _ m | .insert _ m => m

theorem ok_of_ofExcept {m : State} {x : Except (Halt Error) α} {a : α} (h : m.ofExcept x = .done a) :
    x = .ok a := by
  cases x <;> cases h
  rfl

open Outcome

theorem layer_pop {m : State} : m.pop.Gives (·.2.layer = m.layer) := by
  unfold State.pop
  split
  · exact gives_done rfl
  · exact nofun

theorem layer_fetch {c : Context} {o : Operand} {m : State} :
    (m.fetch c o).Gives (·.2.layer = m.layer) := by
  cases o with
  | top => exact layer_pop
  | literal v => exact gives_done rfl
  | name place =>
    refine gives_bind fun text => ?_
    cases c.lookup m.layer text place with
    | ok v => exact gives_done rfl
    | error h => exact nofun

theorem layer_fetchAll {c : Context} {o : Operand} {n : Nat} {m : State} :
    (m.fetchAll c o n).Gives (·.2.layer = m.layer) := by
  cases n with
  | zero => exact gives_done rfl
  | succ n =>
    refine layer_fetch.bind fun _ hlayer => ?_
    dsimp only
    split
    · exact gives_done hlayer
    · exact nofun

theorem layer_write {m : State} {text : String} : (m.write text).Gives (·.layer = m.layer) := by
  unfold State.write
  split
  · exact gives_done rfl
  · exact nofun

theorem frame?_cases {c : Context} {l : Layer} {binder : Binder Word} {v : Value} {span : Span}
    {f : Option Frame} (h : c.frame? l binder v span = .ok f) :
    (f = none ∧ v.entries = 0) ∨
    ∃ row rest, f = some ⟨row, rest, 0, (c.scope l).loopRecord?⟩ ∧ (row :: rest).length = v.entries := by
  unfold Context.frame? at h
  split at h
  · next hrows =>
    cases h
    exact .inl ⟨rfl, (Binder.length_rows hrows).symm⟩
  · next row rest hrows =>
    cases h
    exact .inr ⟨row, rest, rfl, Binder.length_rows hrows⟩
  · cases h
  · cases h

/-- Goes on in the same layer. -/
def Move.Within (l : Layer) (move : Move) : Prop := move.state.layer = l

theorem within_ofResult {m : State} {x : Except (Halt Error) Value} {l : Layer} (h : m.layer = l) :
    (Move.ofResult m x).Gives (Move.Within l) := by
  cases x with
  | ok v => exact gives_done h
  | error e => exact nofun

theorem within_decide {m : State} {decisive : Bool} {target : Nat} :
    (Move.decide m decisive target).Gives (Move.Within m.layer) := by
  refine layer_pop.bind fun _ hlayer => gives_done ?_
  split <;> exact hlayer

/-- Only loops and assignments change the layer. -/
theorem exec_within {c : Context} {i : Instr} {m : State}
    (hstart : ∀ binder stop, i.op ≠ .loopStart binder stop) (hnext : ∀ start, i.op ≠ .loopNext start)
    (hset : ∀ path, i.op ≠ .set path) : (exec c i m).Gives (Move.Within m.layer) := by
  obtain ⟨op, o, span⟩ := i
  cases op with
  | loopStart binder stop => exact absurd rfl (hstart binder stop)
  | loopNext start => exact absurd rfl (hnext start)
  | set path => exact absurd rfl (hset path)
  | inclusion key => exact gives_done rfl
  | jump t => exact gives_done rfl
  | jumpIfFalse t => exact within_decide
  | jumpIfTrue t => exact within_decide
  | jumpUnless t =>
    refine layer_fetch.bind fun _ hlayer => gives_done ?_
    split <;> exact hlayer
  | text place => exact gives_bind fun _ => layer_write.bind fun _ hlayer => gives_done hlayer
  | emit =>
    exact layer_fetch.bind fun _ hfetch => layer_write.bind fun _ hwrite =>
      gives_done (hwrite.trans hfetch)
  | push => exact layer_fetch.bind fun _ hlayer => gives_done hlayer
  | apply f n => exact layer_fetchAll.bind fun _ hlayer => within_ofResult hlayer
  | defined => exact layer_fetch.bind fun _ hlayer => within_ofResult hlayer
  | call place n =>
    exact gives_bind fun _ => layer_fetchAll.bind fun _ hlayer => within_ofResult hlayer
  | fallback =>
    refine layer_pop.bind fun _ hlayer => ?_
    cases o with
    | top => exact layer_pop.bind fun _ hpop => gives_done (hpop.trans hlayer)
    | literal v => exact gives_done hlayer
    | name place =>
      refine gives_bind fun text => ?_
      split <;> exact gives_done hlayer

section

variable {c : Context} {i : Instr} {m : State} {move : Move} {loops : List Loop}

theorem loopStart_counted {binder : Binder Span} {stop : Nat} (hop : i.op = .loopStart binder stop)
    (h : exec c i m = .done move)
    (hc : Counted (m.layer.frames ++ c.around.layers.flatMap (·.frames)) loops) :
    Counted (move.state.layer.frames ++ c.around.layers.flatMap (·.frames)) (Loop.after c i m loops) := by
  obtain ⟨op, o, span⟩ := i
  cases hop
  obtain ⟨⟨v, m₁⟩, hfetch, h⟩ := Outcome.done_of_bind h
  obtain ⟨names, -, h⟩ := Outcome.done_of_bind h
  obtain ⟨f, hframe, h⟩ := Outcome.done_of_bind h
  cases h
  have hlayer : m₁.layer = m.layer := layer_fetch _ hfetch
  have hafter : Loop.after c ⟨.loopStart binder stop, o, span⟩ m loops = Loop.enter v.entries loops := by
    rw [Loop.after]
    dsimp only at hfetch ⊢
    rw [hfetch]
  rw [hafter]
  rcases frame?_cases (ok_of_ofExcept hframe) with ⟨rfl, hnone⟩ | ⟨row, rest, rfl, hrows⟩
  · rw [Loop.enter, if_pos hnone]
    show Counted (m₁.layer.frames ++ _) loops
    rw [hlayer]
    exact hc
  · have hparent : (c.scope m₁.layer).loopRecord? =
        (m.layer.frames ++ c.around.layers.flatMap (·.frames)).head?.map (·.loopRecord) := by
      rw [Scope.loopRecord?_eq, hlayer]
      rfl
    have hentered := hc.enter row rest
    rw [hrows, ← hparent, ← hlayer] at hentered
    exact hentered

theorem loopNext_counted {start : Nat} (hop : i.op = .loopNext start) (h : exec c i m = .done move)
    (hc : Counted (m.layer.frames ++ c.around.layers.flatMap (·.frames)) loops) :
    Counted (move.state.layer.frames ++ c.around.layers.flatMap (·.frames)) (Loop.after c i m loops) := by
  obtain ⟨op, o, span⟩ := i
  cases hop
  obtain ⟨⟨more, m₁⟩, hturn, h⟩ := Outcome.done_of_bind h
  have hstate : move.state = m₁ := by
    dsimp only at h
    split at h <;> cases h <;> rfl
  rw [hstate]
  unfold State.turn at hturn
  split at hturn
  · cases hturn
  · next f rest hframes =>
    rw [hframes] at hc
    have hnext := Counted.turn hc
    cases hadvance : f.advance? with
    | none =>
      rw [hadvance] at hturn hnext
      cases hturn
      exact hnext
    | some g =>
      rw [hadvance] at hturn hnext
      cases hturn
      exact hnext

theorem set_counted {path : List String} (hop : i.op = .set path) (h : exec c i m = .done move)
    (hc : Counted (m.layer.frames ++ c.around.layers.flatMap (·.frames)) loops) :
    Counted (move.state.layer.frames ++ c.around.layers.flatMap (·.frames)) loops := by
  obtain ⟨op, o, span⟩ := i
  cases hop
  obtain ⟨⟨v, m₁⟩, hfetch, h⟩ := Outcome.done_of_bind h
  cases h
  have hlayer : m₁.layer = m.layer := layer_fetch _ hfetch
  show Counted ((m₁.layer.set c.around path v).frames ++ _) loops
  rw [Layer.frames_set, hlayer]
  exact hc

/-- After an instruction the frames are those of the loops that are active then. -/
theorem exec_counted (h : exec c i m = .done move)
    (hc : Counted (m.layer.frames ++ c.around.layers.flatMap (·.frames)) loops) :
    Counted (move.state.layer.frames ++ c.around.layers.flatMap (·.frames)) (Loop.after c i m loops) := by
  cases hop : i.op with
  | loopStart binder stop => exact loopStart_counted hop h hc
  | loopNext start => exact loopNext_counted hop h hc
  | set path =>
    rw [Loop.after, hop]
    exact set_counted hop h hc
  | _ =>
    have hlayer : move.state.layer = m.layer :=
      exec_within (by simp [hop]) (by simp [hop]) (by simp [hop]) _ h
    rw [Loop.after, hop, hlayer]
    exact hc

end

end Machine

/-! ## Steps -/

namespace Rendering

def frames (s : Rendering) : List Frame := (s.current :: s.callers).flatMap (·.layer.frames)

def scope (s : Rendering) (data : Value) : Scope := ⟨(s.current :: s.callers).map (·.layer), data⟩

theorem frames_eq (s : Rendering) (data : Value) :
    s.frames = s.current.layer.frames ++ (s.around data).layers.flatMap (·.frames) := by
  rw [frames, List.flatMap_cons, around, List.flatMap_map]

theorem frames_goTo (s : Rendering) (data : Value) (place : Nat) (m : Machine.State) :
    (s.goTo place m).frames = m.layer.frames ++ (s.around data).layers.flatMap (·.frames) :=
  frames_eq _ data

theorem loopRecord?_scope (s : Rendering) (data : Value) :
    (s.scope data).loopRecord? = s.frames.head?.map (·.loopRecord) := by
  rw [Scope.loopRecord?_eq, scope, List.flatMap_map, frames]

end Rendering

namespace Renderer

variable {r : Renderer} {data : Value} {s s' : Rendering} {loops : List Loop} {functions : Registry}

theorem step_counted (hfit : r.Fit data s) (h : (r.withFunctions functions).step data s = .going s')
    (hc : Counted s.frames loops) :
    Counted s'.frames ((r.withFunctions functions).loopsAfter data s loops) := by
  unfold step at h
  split at h
  · next hend =>
    have hend' : (r.program s.current.page)[s.current.place]? = none := hend
    rw [loopsAfter, hend]
    unfold leave at h
    split at h
    · cases h
    · next v rest hcallers =>
      cases h
      -- no loop is left at the end of a page
      have hframes : s.frames = (v :: rest).flatMap (·.layer.frames) := by
        rw [Rendering.frames, List.flatMap_cons, (hfit.ended hend').2, hcallers, List.nil_append]
      rw [hframes] at hc
      exact hc
  · next i hi =>
    rw [loopsAfter, hi]
    dsimp only
    generalize hcontext : (r.withFunctions functions).context s.current.page (s.around data) = c at h
    have haround : c.around = s.around data := by rw [← hcontext]; rfl
    rw [s.frames_eq data, ← haround] at hc
    cases hexec : exec c i s.machine with
    | done move =>
      rw [hexec] at h
      have hmove := exec_counted hexec hc
      rw [haround] at hmove
      have hsame : (r.withFunctions functions).contextAt data s = c := hcontext
      rw [hsame]
      cases move with
      | next m =>
        cases h
        rw [Rendering.frames_goTo _ data]
        exact hmove
      | jump target m =>
        cases h
        rw [Rendering.frames_goTo _ data]
        exact hmove
      | insert key m =>
        obtain ⟨p, -, -, rfl⟩ := entering_of_enter h
        have hframes := s.frames_goTo data s.current.place m
        rw [Move.state, ← hframes] at hmove
        exact hmove
    | _ =>
      rw [hexec] at h
      cases h

theorem Watched.counted (h : r.Watched data s s' loops) (hends : r.Ends data s)
    (hs : s.frames = []) : Counted s'.frames loops := by
  induction h with
  | start =>
    rw [hs]
    exact ⟨rfl, trivial⟩
  | step functions hw hstep ih => exact step_counted (hends.reaches hw.reaches).fit hstep ih

end Renderer

/-! ## Records -/

/-- The value is the record of the loop. `enclosed` says whether it holds that of another one. -/
structure Value.Tells (v : Value) (l : Loop) (enclosed : Prop) : Prop where
  index : v.step? "index" = some (.ofNat l.index)
  index1 : v.step? "index1" = some (.ofNat (l.index + 1))
  isFirst : v.step? "is_first" = some (.bool (decide (l.index = 0)))
  isLast : v.step? "is_last" = some (.bool (decide (l.index + 1 = l.length)))
  parent : (v.step? "parent").isSome ↔ enclosed

theorem Frame.parent_loopRecord (f : Frame) : f.loopRecord.step? "parent" = f.parent := by
  obtain ⟨row, upcoming, index, parent⟩ := f
  cases parent <;> rfl

theorem Frame.tells (f : Frame) : f.loopRecord.Tells f.loop f.parent.isSome := by
  refine ⟨rfl, rfl, ?_, ?_, by rw [f.parent_loopRecord]⟩
  · show some (Value.bool (f.index == 0)) = _
    rfl
  · show some (Value.bool f.upcoming.isEmpty) = _
    rw [loop, length]
    cases f.upcoming <;> simp

namespace Nested

variable {frames : List Frame} {f : Frame} {m : Nat}

theorem parents (h : Nested frames) (hf : frames[m]? = some f) :
    (frames.head?.map (·.loopRecord)).bind (Value.index? (List.replicate m "parent")) =
      some f.loopRecord := by
  induction m generalizing frames with
  | zero =>
    rw [← List.head?_eq_getElem?] at hf
    rw [hf]
    rfl
  | succ m ih =>
    cases frames with
    | nil => cases hf
    | cons g rest =>
      rw [List.head?_cons, Option.map_some, Option.bind_some, List.replicate_succ, Value.index?,
        g.parent_loopRecord, h.1]
      exact ih h.2 hf

theorem enclosed (h : Nested frames) (hf : frames[m]? = some f) :
    f.parent.isSome ↔ m + 1 < frames.length := by
  induction m generalizing frames with
  | zero =>
    obtain ⟨rest, rfl⟩ := List.head?_eq_some_iff.mp (List.head?_eq_getElem?.trans hf)
    rw [h.1]
    cases rest <;> simp
  | succ m ih =>
    cases frames with
    | nil => cases hf
    | cons g rest =>
      rw [ih h.2 hf, List.length_cons]
      exact (Nat.succ_lt_succ_iff).symm

end Nested

/-- What the records in a state tell, where these loops are active. -/
structure Rendering.Records (s : Rendering) (data : Value) (loops : List Loop) : Prop where
  frames : s.frames.map (·.loop) = loops
  below : ∀ l ∈ loops, l.index < l.length
  record : ∀ m l, loops[m]? = some l → ∃ v,
    (s.scope data).loopRecord?.bind (Value.index? (List.replicate m "parent")) = some v ∧
      v.Tells l (m + 1 < loops.length)
  outside : loops = [] → (s.scope data).loopRecord? = none

theorem Counted.records {s : Rendering} {loops : List Loop} (h : Counted s.frames loops)
    (data : Value) : s.Records data loops := by
  obtain ⟨rfl, hnested⟩ := h
  refine ⟨rfl, ?_, ?_, ?_⟩
  · intro l hl
    obtain ⟨f, -, rfl⟩ := List.mem_map.mp hl
    show f.index < f.index + 1 + f.upcoming.length
    omega
  · intro m l hl
    rw [List.getElem?_map, Option.map_eq_some_iff] at hl
    obtain ⟨f, hf, rfl⟩ := hl
    refine ⟨f.loopRecord, ?_, ?_⟩
    · rw [s.loopRecord?_scope]
      exact hnested.parents hf
    · have htells := f.tells
      rw [propext (hnested.enclosed hf)] at htells
      rwa [List.length_map]
  · intro hnone
    rw [s.loopRecord?_scope, List.map_eq_nil_iff.mp hnone]
    rfl

namespace Engine

variable {e : Engine} {name : Option String} {t : Template} {s : Rendering}

/-- In every state that a rendering reaches, the record of the innermost loop and its parents tell where
the active loops stand, in included templates and around them. -/
theorem loops_recorded (he : e.Reached) (ht : e.Offers name t) (data : Value) (out : Output)
    (hs : (e.renderer name t).Reaches data (.start name t.page out) s) :
    (∃ loops, (e.renderer name t).Watched data (.start name t.page out) s loops) ∧
    ∀ loops, (e.renderer name t).Watched data (.start name t.page out) s loops →
      s.Records data loops :=
  ⟨hs.watched, fun _ hw => (hw.counted (start_ends he ht data out) rfl).records data⟩


def roundSource : String := "\x7b% for x in xs %\x7d\x7b% include \"a\" %\x7d\x7b% endfor %\x7d"

def roundTags : List Tag :=
  [.loop (.item ⟨"x", ⟨7, 8⟩⟩) ⟨.name ⟨"xs", ⟨12, 14⟩⟩, ⟨12, 14⟩⟩,
    .inclusion "a" ⟨28, 31⟩ ⟨20, 31⟩, .endFor ⟨37, 43⟩]

def roundPage : Page := .of true roundSource roundTags

def rounding : Engine := { loader := none, templates := [("a", ⟨roundPage, []⟩)] }

theorem outline_round (g : Grammar) :
    g.outline (Token.scan .standard roundSource) = ⟨roundTags, none⟩ := by
  have hscan : Token.scan .standard roundSource =
      [⟨.opening .block, "\x7b%", ⟨0, 2⟩⟩, ⟨.word, "for", ⟨3, 6⟩⟩, ⟨.word, "x", ⟨7, 8⟩⟩,
        ⟨.word, "in", ⟨9, 11⟩⟩, ⟨.word, "xs", ⟨12, 14⟩⟩, ⟨.closing .block, "%\x7d", ⟨15, 17⟩⟩,
        ⟨.opening .block, "\x7b%", ⟨17, 19⟩⟩, ⟨.word, "include", ⟨20, 27⟩⟩, ⟨.string, "\"a\"", ⟨28, 31⟩⟩,
        ⟨.closing .block, "%\x7d", ⟨32, 34⟩⟩, ⟨.opening .block, "\x7b%", ⟨34, 36⟩⟩,
        ⟨.word, "endfor", ⟨37, 43⟩⟩, ⟨.closing .block, "%\x7d", ⟨44, 46⟩⟩] := by rfl
  have hfor : Keyword.ofText? "for" = some .forWord := by decide
  have hin : Keyword.ofText? "in" = some .inWord := by decide
  have hinclude : Keyword.ofText? "include" = some .includeWord := by decide
  have hendfor : Keyword.ofText? "endfor" = some .endFor := by decide
  have hname : Keyword.ofText? "xs" = none := by decide
  have hstring : Json.read? "\"a\"" = some (.string "a") := by rfl
  rw [hscan]
  simp [roundTags, Grammar.outline, Grammar.outlineFrom, Grammar.piece, Grammar.statementPiece,
    Grammar.statement, Grammar.head, Grammar.keyword?, hfor, hin, hinclude, hendfor, hname,
    Grammar.keywordStatement, Grammar.binder, Grammar.expectKeyword, Grammar.stringLiteral,
    Grammar.expect, hstring, Span.join, Grammar.tagEnd, Outline.cons, Grammar.finish, Grammar.ending,
    Opened.close?, Grammar.expr_word .block, Grammar.wordOperand, Token.word]

theorem rounding_reached : rounding.Reached := by
  have houtline : ({ loader := none } : Engine).outline roundSource = ⟨roundTags, none⟩ :=
    outline_round _
  have hself : Path.normal (Path.directory "a") "a" = "a" := by rfl
  have hgathers : ({ loader := none } : Engine).Gathers 0 (Path.directory "a")
      (({ loader := none } : Engine).outline roundSource).tags (.start (some "a")) roundTags
      (.start (some "a")) := by
    rw [houtline]
    exact .other (by simp) (.known hself (.inr List.mem_cons_self) (.other (by simp) .nil))
  exact .addTemplate (.fresh .standard none .stable) (hgathers.compiles (by rw [houtline]))

theorem rounding_offers : rounding.Offers (some "a") ⟨roundPage, []⟩ := .registered rfl

def roundData : Value := .object [("xs", .array [.ofNat 1, .ofNat 2])]

def firstFrame (parent : Option Value) : Frame := ⟨[("x", .ofNat 1)], [[("x", .ofNat 2)]], 0, parent⟩

def roundVisit (place : Nat) (f : Frame) : Visit := ⟨roundPage, some "a", place, [], ⟨[f], []⟩⟩

/-- In the first round of the template there begins the first round of the included one. -/
def roundState : Rendering :=
  ⟨roundVisit 1 (firstFrame (some (firstFrame none).loopRecord)), [roundVisit 1 (firstFrame none)],
    (.memory "")⟩

def roundRenderer : Renderer := rounding.renderer (some "a") ⟨roundPage, []⟩

theorem round_watched : roundRenderer.Watched roundData (.start (some "a") roundPage (.memory ""))
    roundState [⟨0, 2⟩, ⟨0, 2⟩] := by
  have hloop : (roundRenderer.withFunctions []).step roundData
      (.start (some "a") roundPage (.memory "")) =
      .going ⟨roundVisit 1 (firstFrame none), [], .memory ""⟩ := by rfl
  have hinclude : (roundRenderer.withFunctions []).step roundData
      ⟨roundVisit 1 (firstFrame none), [], .memory ""⟩ =
      .going ⟨.start (some "a") roundPage, [roundVisit 1 (firstFrame none)], .memory ""⟩ := by rfl
  have hinner : (roundRenderer.withFunctions []).step roundData
      ⟨.start (some "a") roundPage, [roundVisit 1 (firstFrame none)], .memory ""⟩ =
      .going roundState := by rfl
  exact .step [] (.step [] (.step [] .start hloop) hinclude) hinner

theorem loops_recorded_twice : rounding.Reached ∧ rounding.Offers (some "a") ⟨roundPage, []⟩ ∧
    roundRenderer.Reaches roundData (.start (some "a") roundPage (.memory "")) roundState ∧
    roundState.Records roundData [⟨0, 2⟩, ⟨0, 2⟩] :=
  ⟨rounding_reached, rounding_offers, round_watched.reaches,
    (loops_recorded rounding_reached rounding_offers roundData (.memory "") round_watched.reaches).2 _
      round_watched⟩

end Engine

end Stencil

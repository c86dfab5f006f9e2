import Stencil.Proofs.Binding.Tags
import Stencil.Proofs.Literals.Operand
import Stencil.Proofs.Literals.RoundTrip
import Stencil.Proofs.Scoping.Loops
/-!
# Names bound to literals

In the standard markup a name that a JSON text is assigned to stands for the value of that text.
-/

namespace Stencil

open Token

def setSource (name : String) (value : List Char) : String :=
  String.ofList (setHead name ++ ' ' :: (value ++ [' ', '%', '\x7d']))

/-! ## Reading the statement -/

namespace Json

variable {v w : Value}

theorem cuts_text {m : Markup} {c : Cursor} {tail : List Char} (hm : blockOpener ∈ m.openers)
    (hread : read? (String.ofList (text v)) = some w) (htail : Separates tail)
    (hc : c.rest = ' ' :: (text v ++ tail)) :
    ∃ ts d, Cuts m (.tag blockOpener false) c ts (.tag blockOpener true) d ∧ d.rest = tail ∧
      Written w c d [' '] ts := by
  obtain ⟨n, rest, hvalue, hblanks⟩ := value?_of_read? hread
  obtain ⟨x, xs, htext, hx, -⟩ := text_head v
  have hblank : ∀ c ∈ [' '], isBlank c := List.forall_mem_singleton.mpr rfl
  have hwhile : ([' '] ++ text v).takeWhile isBlank = [' '] := by
    rw [htext, takeWhile_blanks hblank hx]
  have hrest : Separates (rest ++ tail) := by
    cases rest with
    | nil => exact htail
    | cons y rest => exact separates_blank (hblanks y List.mem_cons_self) _
  rw [← value?_blanks hblank] at hvalue
  obtain ⟨ts, d, hcuts, hd, hwritten⟩ :=
    (cutAt n).value (m := m) (b := false) hvalue hrest nofun (c := c) hc
  rw [hwhile] at hwritten
  refine ⟨ts, d, hcuts, ?_, hwritten⟩
  obtain ⟨taken, htaken⟩ := hcuts.suffix hm
  rw [hc, hd, ← List.append_assoc, ← List.cons_append] at htaken
  have hsplit := List.append_cancel_right htaken
  rw [hd]
  cases taken with
  | nil =>
    -- the text of a value is not all blanks
    rw [List.nil_append] at hsplit
    rw [← hsplit, List.forall_mem_cons, htext, List.forall_mem_cons, hx] at hblanks
    cases hblanks.2.1
  | cons y taken =>
    rw [text_last v taken rest (List.cons.inj hsplit).2 hblanks]
    rfl

end Json

namespace Engine

variable {e : Engine} {name : String} {v w : Value}

theorem outline_literal (he : e.markup.openers = Markup.standard.openers) (hname : IsWord name)
    (hread : Json.read? (String.ofList (Json.text v)) = some w) :
    ∃ span place, e.outline (setSource name (Json.text v)) =
      ⟨[.set (e.markup.paths.split name) (.literal w span) place], none⟩ := by
  generalize hsource : setSource name (Json.text v) = source
  have hm : blockOpener ∈ e.markup.openers := Standard.block.mem he
  have hchars : source.toList = setHead name ++ ' ' :: (Json.text v ++ [' ', '%', '\x7d']) := by
    rw [← hsource, setSource, String.toList_ofList]
  have hstart : (Cursor.start source.toList).At (e.grammar source).source := Cursor.start_at _
  obtain ⟨o, s, t, a, c, hhead, hc, ho, hs, ht, hname', ha⟩ :=
    cuts_set .nothing he hname (c := .start source.toList) hchars
  obtain ⟨ts, d, hvalue, hd, hwritten⟩ := Json.cuts_text hm hread
    (Json.separates_blank rfl _) hc
  obtain ⟨u, end', hclosing, hend, hu⟩ :=
    Standard.block.closing (m := e.markup) (b := true)
      (show d.rest = ' ' :: (blockOpener.closing ++ []) from hd)
  obtain ⟨span, place, hexpr⟩ := Grammar.expr_written (g := e.grammar source) hm hvalue hwritten
    (hhead.at_source hstart) (by rw [hc, hd]; rfl) hread hu []
  have htokens : scan e.markup source = o :: s :: t :: a :: (ts ++ [u]) := by
    obtain ⟨hready, hremaining⟩ := (hhead.trans (hvalue.trans hclosing)).remaining_eq trivial
    rw [scan_eq, hremaining, remaining_nil hready hend, List.append_nil]
    rfl
  have hstatements := Grammar.Statements.assign ho hs ht ha hexpr hu .nil
  have houtline := hstatements.outline rfl
  rw [outline, htokens, houtline, hname', Grammar.target_word hname]
  exact ⟨span, _, rfl⟩

end Engine

/-! ## Carrying out the statement -/

/-- Rendering the source by itself comes to its end without any output, and there the name stands for the
value. -/
def Engine.Binds (e : Engine) (source name : String) (v : Value) : Prop :=
  ∃ t, (e.compile source).result = .ok t ∧ ∀ data out, ∃ s,
    (e.renderer none t).Reaches data (.start none t.page out) s ∧
    (e.renderer none t).step data s = .ended (.done out) ∧
    (s.scope data).find? (e.markup.paths.split name) = some v

theorem PathStyle.split_ne_nil (style : PathStyle) (name : String) : style.split name ≠ [] := by
  have hparts : ∀ cs, parts style.separator cs ≠ [] := by
    intro cs
    induction cs with
    | nil => exact List.cons_ne_nil _ _
    | cons c cs ih =>
      rw [parts]
      split
      · exact List.cons_ne_nil _ _
      · split <;> exact List.cons_ne_nil _ _
  intro h
  exact hparts _ (List.map_eq_nil_iff.mp h)

theorem Scope.find?_set_empty (around : Scope) {path : List String} (hpath : path ≠ []) (v : Value) :
    find? { around with layers := Layer.empty.set around path v :: around.layers } path = some v := by
  obtain ⟨first, rest, rfl⟩ := List.exists_cons_of_ne_nil hpath
  have hempty : ∀ f ∈ Layer.empty.frames, f.find? first = none := nofun
  obtain ⟨x, hx, hvalue⟩ := Option.bind_eq_some_iff.mp (Layer.find?_set hempty around rest v)
  rw [find?, List.findSome?_cons, hx]
  exact hvalue

namespace Renderer

variable {r : Renderer} {data : Value} {s s' : Rendering}

theorem Reaches.one (h : r.step data s = .going s') : r.Reaches data s s' :=
  .step .refl ⟨r.functions, h⟩

theorem reaches_set (hr : r.program = Page.code) {p : Page} {path : List String} {v : Value}
    {span place : Span} (hp : p.tags = [.set path (.literal v span) place]) (out : Output) :
    ∃ s, r.Reaches data (.start none p out) s ∧ r.step data s = .ended (.done out) ∧
      s.scope data = ⟨[Layer.empty.set ⟨[], data⟩ path v], data⟩ := by
  have hcode : r.program p = Emitter.program p.folding [.set path (.literal v span) place] := by
    rw [hr, p.code_eq, hp]
  cases hfolding : p.folding with
  | true =>
    have hprogram : r.program p = #[⟨.set path, .literal v, place⟩] := by
      rw [hcode, hfolding]
      rfl
    refine ⟨⟨⟨p, none, 1, [], Layer.empty.set ⟨[], data⟩ path v⟩, [], out⟩, .one ?_, ?_, rfl⟩
    · simp only [step, Rendering.start, Visit.start, hprogram]
      rfl
    · simp only [step, hprogram]
      rfl
  | false =>
    have hprogram : r.program p = #[⟨.push, .literal v, span⟩, ⟨.set path, .top, place⟩] := by
      rw [hcode, hfolding]
      rfl
    have hpush : r.step data (.start none p out) = .going ⟨⟨p, none, 1, [v], .empty⟩, [], out⟩ := by
      simp only [step, Rendering.start, Visit.start, hprogram]
      rfl
    have hset : r.step data ⟨⟨p, none, 1, [v], .empty⟩, [], out⟩ =
        .going ⟨⟨p, none, 2, [], Layer.empty.set ⟨[], data⟩ path v⟩, [], out⟩ := by
      simp only [step, hprogram]
      rfl
    refine ⟨_, .step (.one hpush) ⟨r.functions, hset⟩, ?_, rfl⟩
    simp only [step, hprogram]
    rfl

end Renderer

namespace Engine

variable {e : Engine} {name : String} {v w : Value}

theorem binds_literal (he : e.markup.openers = Markup.standard.openers) (hname : IsWord name)
    (hread : Json.read? (String.ofList (Json.text v)) = some w) :
    e.Binds (setSource name (Json.text v)) name w := by
  obtain ⟨span, place, houtline⟩ := outline_literal he hname hread
  have hcompile := compile_plain houtline (by simp)
  generalize ht : Template.mk (.of e.folding (setSource name (Json.text v)) _) [] = t at hcompile
  have htags : t.page.tags = [.set (e.markup.paths.split name) (.literal w span) place] := by rw [← ht]; rfl
  refine ⟨t, hcompile, fun data out => ?_⟩
  obtain ⟨s, hreaches, hend, hscope⟩ := (e.renderer none t).reaches_set rfl htags out
  refine ⟨s, hreaches, hend, ?_⟩
  rw [hscope]
  exact Scope.find?_set_empty ⟨[], data⟩ (e.markup.paths.split_ne_nil name) w

/-- In the standard markup the compact text of a value can be assigned to any name, which stands for what
the text is read as from then on. Without doubles in it that is the value. -/
theorem literal_bound (he : e.markup.openers = Markup.standard.openers) (hname : IsWord name)
    (hformed : v.WellFormed) (hnesting : v.nesting ≤ 127) :
    (∀ w, Json.read? (String.ofList (Json.text v)) = some w →
      e.Binds (setSource name (Json.text v)) name w) ∧
    (v.Within Number.IsWhole → Json.read? (String.ofList (Json.text v)) = some v ∧
      e.Binds (setSource name (Json.text v)) name v) := by
  refine ⟨fun w hread => binds_literal he hname hread, fun hwhole => ?_⟩
  have hread := Json.read?_text hformed hwhole hnesting
  exact ⟨hread, binds_literal he hname hread⟩

def markedValue : Value :=
  .array [.string "]%\x7d\"\\", .object [("\x7b#", .array [.number (.ofNat 1), .string "\x7d\x7d"])]]

theorem literal_bound_marked : ({ loader := none } : Engine).markup.openers = Markup.standard.openers ∧
    IsWord "x" ∧ markedValue.WellFormed ∧ markedValue.nesting ≤ 127 ∧
    markedValue.Within Number.IsWhole ∧
    ({ loader := none } : Engine).Binds (setSource "x" (Json.text markedValue)) "x" markedValue := by
  have hname : IsWord "x" := ⟨'x', [], rfl, by decide, nofun⟩
  have hformed : markedValue.WellFormed :=
    ⟨trivial, ⟨List.pairwise_singleton _ _, ⟨trivial, trivial, trivial⟩, trivial⟩, trivial⟩
  have hnesting : markedValue.nesting ≤ 127 := by decide
  have hwhole : markedValue.Within Number.IsWhole :=
    ⟨trivial, ⟨⟨trivial, trivial, trivial⟩, trivial⟩, trivial⟩
  exact ⟨rfl, hname, hformed, hnesting, hwhole, ((literal_bound rfl hname hformed hnesting).2 hwhole).2⟩

end Engine

end Stencil

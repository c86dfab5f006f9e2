import Mathlib.Order.Basic
import Stencil.Error
import Stencil.Proofs.Text.Lines
import Stencil.Proofs.Text.Position
/-!
# Excerpts show the place of an error

Two places between the characters of a source have different positions, in the order of the places. The
excerpt of an error at such a place has the line of the source that the place is in, and the carets stand
behind what the line has in front of the place. Only a carriage return in front of a newline is left out.
If the place is too far to the right, there is no excerpt.
-/

namespace Stencil

/-! ## Lines cut at a place -/

/-- A source cut at a place, and at both ends of the line that the place is in. The newline that ends the
line stands below. -/
structure LineCut {source : String} (place : source.Pos) where
  above : List Char
  before : List Char
  behind : List Char
  below : List Char
  splits : place.Splits (.ofList (above ++ before)) (.ofList (behind ++ below))
  above_ends : EndsLine above
  before_inside : '\n' ∉ before
  behind_inside : '\n' ∉ behind
  below_follows : FollowsLine below

namespace LineCut

variable {source : String} {place : source.Pos}

def position (cut : LineCut place) : Position := ⟨cut.above.count '\n' + 1, cut.before.length + 1⟩

/-- The line, but for a carriage return in front of the newline that ends it. -/
def line (cut : LineCut place) : List Char :=
  if cut.below = [] then cut.before ++ cut.behind else withoutReturn (cut.before ++ cut.behind)

/-- The line up to the place, but for a carriage return in front of the newline that ends the line. -/
def lead (cut : LineCut place) : List Char :=
  if cut.behind = [] ∧ cut.below ≠ [] then withoutReturn cut.before else cut.before

theorem exists_cut (place : source.Pos) : Nonempty (LineCut place) := by
  obtain ⟨front, back, hsplits⟩ : ∃ front back, place.Splits front back := ⟨_, _, place.splits⟩
  obtain ⟨above, hfront, hends⟩ := append_lastLine front.toList
  obtain ⟨behind, below, hback, hbehind, hbelow⟩ := exists_first_line back.toList
  refine ⟨{
    above := above
    before := lastLine front.toList
    behind := behind
    below := below
    splits := hsplits.of_eq ?_ ?_
    above_ends := hends
    before_inside := newline_not_mem_lastLine _
    behind_inside := hbehind
    below_follows := hbelow }⟩
  · rw [← hfront, String.ofList_toList]
  · rw [← hback, String.ofList_toList]

theorem toList_eq (cut : LineCut place) :
    source.toList = cut.above ++ (cut.before ++ cut.behind ++ cut.below) := by
  have h := Position.toList_eq cut.splits
  simpa using h

theorem ofPos_eq (cut : LineCut place) : Position.ofPos place = cut.position := by
  rw [Position.ofPos_splits cut.splits, String.toList_ofList]
  have hlast : lastLine (cut.above ++ cut.before) = cut.before :=
    lastLine_of_endsLine cut.above_ends cut.before_inside
  have hcount : (cut.above ++ cut.before).count '\n' = cut.above.count '\n' := by
    rw [List.count_append, List.count_eq_zero.mpr cut.before_inside, Nat.add_zero]
  rw [Position.after, hlast, hcount, position]

theorem line_inside (cut : LineCut place) : '\n' ∉ cut.before ++ cut.behind := by
  rw [List.mem_append, not_or]
  exact ⟨cut.before_inside, cut.behind_inside⟩

theorem sourceLine_eq (cut : LineCut place) :
    Error.sourceLine source.toList cut.position = cut.line := by
  unfold Error.sourceLine position line
  rw [toList_eq cut, Nat.add_sub_cancel, ← List.head?_drop, drop_lines cut.above_ends,
    head_lines cut.line_inside cut.below_follows]

theorem take_line (cut : LineCut place) : cut.line.take cut.before.length = cut.lead := by
  unfold line lead
  by_cases hbelow : cut.below = []
  · rw [if_pos hbelow, if_neg (fun h => h.2 hbelow), List.take_left]
  · rw [if_neg hbelow]
    by_cases hbehind : cut.behind = []
    · rw [if_pos ⟨hbehind, hbelow⟩, hbehind, List.append_nil,
        List.take_of_length_le (length_withoutReturn_le _)]
    · rw [if_neg (fun h => hbehind h.1), withoutReturn_append hbehind, List.take_left]

theorem lead_prefix (cut : LineCut place) : cut.lead <+: cut.line := by
  rw [← take_line]
  exact List.take_prefix _ _

theorem beforeCaret_eq (cut : LineCut place) :
    Error.beforeCaret source.toList cut.position = cut.lead := by
  unfold Error.beforeCaret
  rw [sourceLine_eq, position, Nat.add_sub_cancel, take_line]

end LineCut

/-! ## The text of an excerpt -/

/-- What an excerpt tells. -/
structure Excerpt where
  template : String
  position : Position
  line : List Char
  lead : List Char
  carets : Nat
  message : String

def LineCut.excerpt {source : String} {place : source.Pos} (cut : LineCut place) (e : Error)
    (stop : Nat) : Excerpt where
  template := e.template.getD "<anonymous>"
  position := cut.position
  line := cut.line
  lead := cut.lead
  carets := Error.underline source.toList ⟨place.offset.byteIdx, stop⟩
  message := e.fault.message

def Excerpt.text (x : Excerpt) : String :=
  let number := toString x.position.line
  let margin := Error.spaces number.length
  let code := String.ofList x.line
  let offset := Error.spaces (Width.text x.lead)
  let carets := String.ofList (List.replicate x.carets '^')
  s!"\n {margin}--> {x.template}:{x.position.line}:{x.position.column}\n {margin} |\n {number} | {code}\n {margin} | {offset}{carets} {x.message}\n"

/-- No padding is wider than a text is ever padded to. -/
def Excerpt.Fits (x : Excerpt) : Prop :=
  (toString x.position.line).length ≤ Error.widest ∧ Width.text x.lead ≤ Error.widest

example : Excerpt.text ⟨"test", ⟨2, 4⟩, "a + )".toList, "a +".toList, 1, "unexpected token"⟩ =
    "\n  --> test:2:4\n   |\n 2 | a + )\n   |    ^ unexpected token\n" := by rfl

namespace Error

variable {e : Error} {source : String} {place : source.Pos} {stop : Nat}

theorem padding_of_le {n : Nat} (h : n ≤ widest) : padding n = .ok (spaces n) := if_pos h

theorem padding_of_lt {n : Nat} (h : widest < n) : padding n = .error .padding :=
  if_neg (Nat.not_le.mpr h)

def toExcerpt (e : Error) (source : List Char) (span : Span) : Excerpt :=
  let p := Position.ofPlace source span.start
  { template := e.template.getD "<anonymous>"
    position := p
    line := sourceLine source p
    lead := beforeCaret source p
    carets := underline source span
    message := e.fault.message }

theorem excerpt_eq {span : Span} (h : e.place = some (source, span)) :
    ((e.toExcerpt source.toList span).Fits →
      e.excerpt = .ok (e.toExcerpt source.toList span).text) ∧
    (¬ (e.toExcerpt source.toList span).Fits → e.excerpt = .error .padding) := by
  have hnumber : (toString (e.toExcerpt source.toList span).position.line).length =
    (toString (Position.ofPlace source.toList span.start).line).length := rfl
  have hlead : Width.text (e.toExcerpt source.toList span).lead =
    Width.text (beforeCaret source.toList (Position.ofPlace source.toList span.start)) := rfl
  unfold excerpt Excerpt.Fits
  rw [h, hnumber, hlead]
  dsimp only
  refine ⟨fun hfits => ?_, fun hfits => ?_⟩
  · rw [padding_of_le hfits.1, padding_of_le hfits.2]
    rfl
  · by_cases hmargin : (toString (Position.ofPlace source.toList span.start).line).length ≤ widest
    · rw [padding_of_le hmargin, padding_of_lt (Nat.not_le.mp fun hoffset => hfits ⟨hmargin, hoffset⟩)]
      rfl
    · rw [padding_of_lt (Nat.not_le.mp hmargin)]
      rfl

theorem position?_ofPos (h : e.place = some (source, ⟨place.offset.byteIdx, stop⟩)) :
    e.position? = some (Position.ofPos place) := by
  unfold position?
  rw [h]
  rfl

theorem toExcerpt_cut (e : Error) (cut : LineCut place) :
    e.toExcerpt source.toList ⟨place.offset.byteIdx, stop⟩ = cut.excerpt e stop := by
  have hposition : Position.ofPlace source.toList place.offset.byteIdx = cut.position :=
    cut.ofPos_eq
  unfold toExcerpt LineCut.excerpt
  dsimp only
  rw [hposition, cut.sourceLine_eq, cut.beforeCaret_eq]

theorem excerpt_cut (cut : LineCut place)
    (h : e.place = some (source, ⟨place.offset.byteIdx, stop⟩)) :
    ((cut.excerpt e stop).Fits → e.excerpt = .ok (cut.excerpt e stop).text) ∧
    (¬ (cut.excerpt e stop).Fits → e.excerpt = .error .padding) := by
  rw [← toExcerpt_cut e cut]
  exact excerpt_eq h

/-- Positions tell the places of a source apart and keep their order. Whatever source an error is
located in, its excerpt shows the line of its place, with the carets behind the text up to the place. But
there is an excerpt only if that text is not too wide. -/
theorem positions_faithful (source : String) :
    (∀ a b : source.Pos, Position.ofPos a < Position.ofPos b ↔ a < b) ∧
    Function.Injective (@Position.ofPos source) ∧
    ∀ place : source.Pos, Nonempty (LineCut place) ∧ ∀ (cut : LineCut place) (e : Error) (stop : Nat),
      e.place = some (source, ⟨place.offset.byteIdx, stop⟩) →
        e.position? = some (Position.ofPos place) ∧ Position.ofPos place = cut.position ∧
        ((cut.excerpt e stop).Fits → e.excerpt = .ok (cut.excerpt e stop).text) ∧
        (¬ (cut.excerpt e stop).Fits → e.excerpt = .error .padding) ∧
        cut.lead <+: cut.line := by
  refine ⟨fun _ _ => Position.ofPos_lt_iff, fun _ _ => Position.eq_of_ofPos, fun place => ?_⟩
  refine ⟨LineCut.exists_cut place, fun cut e stop h => ?_⟩
  obtain ⟨hfits, hwide⟩ := excerpt_cut cut h
  exact ⟨position?_ofPos h, cut.ofPos_eq, hfits, hwide, cut.lead_prefix⟩

def returned : ("a\né\r\n" : String).Pos := ⟨⟨5⟩, by decide⟩

def returnedCut : LineCut returned where
  above := ['a', '\n']
  before := ['é', '\r']
  behind := []
  below := ['\n']
  splits := ⟨by decide, by decide⟩
  above_ends := .inr rfl
  before_inside := by decide
  behind_inside := by decide
  below_follows := .inr ⟨[], rfl⟩

theorem positions_faithful_returned :
    (located .divisionByZero "a\né\r\n" ⟨5, 6⟩).position? = some ⟨2, 3⟩ ∧
    (located .divisionByZero "a\né\r\n" ⟨5, 6⟩).excerpt =
      .ok (Excerpt.text ⟨"<anonymous>", ⟨2, 3⟩, ['é'], ['é'], 1, "division by zero"⟩) := by
  obtain ⟨hposition, hcut, hfits, -, -⟩ := ((positions_faithful "a\né\r\n").2.2 returned).2
    returnedCut (located .divisionByZero "a\né\r\n" ⟨5, 6⟩) 6 rfl
  refine ⟨hposition.trans (congrArg some hcut), hfits ⟨by decide, ?_⟩⟩
  have hlead : Width.text returnedCut.lead = 1 := by decide +kernel
  exact Nat.le_trans (Nat.le_of_eq hlead) (by decide)

/-! ## A place too far to the right -/

def farFront (n : Nat) : List Char := List.replicate n ' ' ++ ['\x7b', '\x7b', ' ']

def farSource (n : Nat) : String := String.ofList (farFront n ++ ['x', ' ', '\x7d', '\x7d'])

theorem measure_blanks {cs : List Char} {width : Int} (n : Nat)
    (h : Width.measure cs = (width, ⟨.other, none⟩)) :
    Width.measure (List.replicate n ' ' ++ cs) = (width + n, ⟨.other, none⟩) := by
  induction n with
  | zero => simpa using h
  | succ n ih =>
    rw [List.replicate_succ, List.cons_append]
    have hcons : Width.measure (' ' :: (List.replicate n ' ' ++ cs)) =
        (width + n + 1, ⟨.other, none⟩) := by
      unfold Width.measure at ih ⊢
      rw [List.foldr_cons, ih]
      rfl
    rw [hcons, Int.natCast_succ, Int.add_assoc]

theorem farSource_eq (n : Nat) : farSource n = .ofList (farFront n) ++ "x \x7d\x7d" := String.ofList_append

theorem rawEndPos_far (n : Nat) : (String.ofList (farFront n)).rawEndPos = ⟨n + 3⟩ := by
  have hblanks : byteSize (List.replicate n ' ') = n := by
    induction n with
    | zero => rfl
    | succ n ih =>
      rw [List.replicate_succ, byteSize_cons, ih, Nat.add_comm]
      rfl
  apply String.Pos.Raw.ext
  rw [String.byteIdx_rawEndPos, ← byteSize_toList, String.toList_ofList, farFront, byteSize_append,
    hblanks]
  rfl

def farPlace (n : Nat) : (farSource n).Pos :=
  ⟨⟨n + 3⟩, String.Pos.Raw.isValid_iff_exists_append.mpr
    ⟨_, _, farSource_eq n, (rawEndPos_far n).symm⟩⟩

def farCut (n : Nat) : LineCut (farPlace n) where
  above := []
  before := farFront n
  behind := ['x', ' ', '\x7d', '\x7d']
  below := []
  splits := ⟨farSource_eq n, (rawEndPos_far n).symm⟩
  above_ends := .inl rfl
  before_inside := by simp [farFront]
  behind_inside := by decide
  below_follows := .inl rfl

theorem excerpt_far (n : Nat) :
    (located (.unknownVariable "x") (farSource n) ⟨n + 3, n + 4⟩).excerpt = .error .padding ↔
      widest < n + 3 := by
  obtain ⟨hfits, hwide⟩ := excerpt_cut (farCut n)
    (show (located (.unknownVariable "x") (farSource n) ⟨n + 3, n + 4⟩).place = _ from rfl)
  have hwidth : Width.text (farCut n).lead = n + 3 := by
    have hmeasure : Width.measure ['\x7b', '\x7b', ' '] = (3, ⟨.other, none⟩) := by rfl
    show Width.text (farFront n) = n + 3
    rw [Width.text, farFront, measure_blanks n hmeasure]
    omega
  refine ⟨fun hpanics => ?_, fun hlt => hwide fun h => ?_⟩
  · by_contra hle
    have hnumber : (toString 1).length ≤ widest := by decide
    have hok := hfits ⟨hnumber, hwidth.trans_le (Nat.not_lt.mp hle)⟩
    rw [hpanics] at hok
    cases hok
  · have hle : Width.text (farCut n).lead ≤ widest := h.2
    omega

theorem far_panics :
    (located (.unknownVariable "x") (farSource 70000) ⟨70003, 70004⟩).excerpt = .error .padding :=
  (excerpt_far 70000).mpr (by decide)

end Error

end Stencil

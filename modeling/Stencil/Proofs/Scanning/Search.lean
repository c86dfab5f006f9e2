import Stencil.Proofs.Scanning.Openers
import Stencil.Proofs.Scanning.Pair
import Stencil.Proofs.Text.Bytes
import Stencil.Searcher
/-!
# The search finds the first opener, and there the longest one

The bytes that no opener begins with can be passed over, and the first opener that matches is the
longest that does. As no character has a byte inside of it that begins another one, the search over
bytes comes to the same as the one over characters.
-/

namespace Stencil

/-! ## Openers in the bytes of a source -/

namespace Markup

/-- An opener of the markup stands at a place. That of a line counts only where a line begins. -/
structure Opens (m : Markup) (bytes : List UInt8) (place : Nat) (o : Opener) : Prop where
  known : m.opener? o.kind = some o
  stands : encoded o.mark <+: bytes.drop place
  line : o.kind = .line → place = 0 ∨ bytes[place - 1]? = some 10

/-- The first place from some place on where an opener stands, and the one that counts there. -/
structure First (m : Markup) (source : List Char) (start : Nat) (o : Opener) (span : Span) : Prop where
  start_le : start ≤ span.start
  opens : m.Opens (encoded source) span.start o
  stop_eq : span.stop = span.start + (encoded o.mark).length
  leftmost : ∀ place p, start ≤ place → m.Opens (encoded source) place p → span.start ≤ place
  longest : ∀ p, m.Opens (encoded source) span.start p → p = o ∨ o.Before p
  inside : span.Inside source

def Nowhere (m : Markup) (source : List Char) (start : Nat) : Prop :=
  ∀ place o, start ≤ place → ¬ m.Opens (encoded source) place o

structure Answers (m : Markup) (source : List Char) (start : Nat)
    (found : Option (TagKind × Span)) : Prop where
  first : ∀ kind span, found = some (kind, span) →
    ∃ o, o.kind = kind ∧ m.First source start o span
  nowhere : found = none → m.Nowhere source start

variable {m : Markup} {source : List Char} {start : Nat} {o o' : Opener} {span span' : Span}
  {kind : TagKind} {found found' : Option (TagKind × Span)}

theorem First.unique (h : m.First source start o span) (h' : m.First source start o' span') :
    o = o' ∧ span = span' := by
  have hle := h.leftmost _ _ h'.start_le h'.opens
  have hge := h'.leftmost _ _ h.start_le h.opens
  have hstart : span.start = span'.start := by omega
  have ho : o = o' := by
    rcases h.longest o' (hstart ▸ h'.opens) with heq | hbefore
    · exact heq.symm
    · rcases h'.longest o (hstart ▸ h.opens) with heq | hafter
      · exact heq
      · exact absurd hafter hbefore.asymm
  refine ⟨ho, ?_⟩
  have hstop : span.stop = span'.stop := by rw [h.stop_eq, h'.stop_eq, hstart, ho]
  cases span
  cases span'
  simp_all

theorem Answers.eq_some_iff (h : m.Answers source start found) :
    found = some (kind, span) ↔ ∃ o, o.kind = kind ∧ m.First source start o span := by
  constructor
  · exact h.first kind span
  · rintro ⟨o, rfl, ho⟩
    cases hfound : found with
    | none => exact absurd ho.opens (h.nowhere hfound _ _ ho.start_le)
    | some found =>
      obtain ⟨o', hkind, ho'⟩ := h.first found.1 found.2 hfound
      obtain ⟨rfl, hspan⟩ := ho.unique ho'
      rw [hkind, hspan]

theorem Answers.eq_none_iff (h : m.Answers source start found) :
    found = none ↔ m.Nowhere source start := by
  constructor
  · exact h.nowhere
  · intro hno
    cases hfound : found with
    | none => rfl
    | some found =>
      obtain ⟨o, -, ho⟩ := h.first found.1 found.2 hfound
      exact absurd ho.opens (hno _ _ ho.start_le)

theorem Answers.unique (h : m.Answers source start found) (h' : m.Answers source start found') :
    found = found' := by
  apply Option.ext
  rintro ⟨kind, span⟩
  rw [h.eq_some_iff, h'.eq_some_iff]

theorem Answers.widen {start' : Nat} (h : m.Answers source start' found) (hle : start ≤ start')
    (hno : ∀ place o, start ≤ place → place < start' → ¬ m.Opens (encoded source) place o) :
    m.Answers source start found := by
  have hfrom : ∀ {place o}, start ≤ place → m.Opens (encoded source) place o → start' ≤ place := by
    intro place o hplace ho
    by_contra hlt
    exact hno place o hplace (by omega) ho
  constructor
  · intro kind span hfound
    obtain ⟨o, hkind, ho⟩ := h.first kind span hfound
    refine ⟨o, hkind, { ho with start_le := Nat.le_trans hle ho.start_le, leftmost := ?_ }⟩
    intro place p hplace hp
    exact ho.leftmost place p (hfrom hplace hp) hp
  · intro hfound place o hplace ho
    exact h.nowhere hfound place o (hfrom hplace ho) ho

theorem Opens.split {place : Nat} (h : m.Opens (encoded source) place o) :
    ∃ before after, source = before ++ (o.mark ++ after) ∧ byteSize before = place :=
  split_of_encoded (mark_ne_nil h.known) h.stands

theorem Opens.inside {place : Nat} (h : m.Opens (encoded source) place o) :
    Span.Inside ⟨place, place + (encoded o.mark).length⟩ source := by
  obtain ⟨before, after, hsource, rfl⟩ := h.split
  exact ⟨o.mark, before, after, hsource, by rw [length_encoded]⟩

end Markup

/-! ## The search over bytes -/

namespace Searcher

variable {s : Searcher} {bytes : List UInt8} {place : Nat} {kind : TagKind} {span : Span}

def Ready (s : Searcher) : Prop := ∀ o ∈ s.openers, ∃ b ∈ s.starts, o.2.head? = some b

theorem find?_eq_none (hs : s.Ready) (h : ∀ b, bytes[place]? = some b → s.starts.contains b = false) :
    s.openers.find? (standsAt bytes place) = none := by
  rw [List.find?_eq_none]
  intro o ho hstands
  obtain ⟨b, hb, hhead⟩ := hs o ho
  rw [standsAt, Bool.and_eq_true, List.isPrefixOf_iff_prefix] at hstands
  obtain ⟨rest, hrest⟩ := hstands.1
  obtain ⟨tail, htail⟩ := List.head?_eq_some_iff.mp hhead
  have hbyte : bytes[place]? = some b := by
    rw [← Nat.add_zero place, ← List.getElem?_drop, ← hrest, htail]
    rfl
  have hno := h b hbyte
  rw [List.contains_iff_mem.mpr hb] at hno
  cases hno

theorem find?_eq_none_of_skipped (hs : s.Ready) {skipped p : Nat}
    (h : (bytes.drop place).findIdx? (fun b => s.starts.contains b) = some skipped)
    (hp : place ≤ p) (hlt : p < place + skipped) :
    s.openers.find? (standsAt bytes p) = none := by
  obtain ⟨hlength, -, hno⟩ := List.findIdx?_eq_some_iff_getElem.mp h
  apply find?_eq_none hs
  intro b hb
  have hskip := hno (p - place) (by omega)
  rw [List.getElem_drop] at hskip
  obtain ⟨_, rfl⟩ := List.getElem?_eq_some_iff.mp hb
  simpa [Nat.add_sub_cancel' hp] using hskip

theorem find?_eq_none_of_all (hs : s.Ready) {p : Nat}
    (h : (bytes.drop place).findIdx? (fun b => s.starts.contains b) = none) (hp : place ≤ p) :
    s.openers.find? (standsAt bytes p) = none := by
  apply find?_eq_none hs
  intro b hb
  apply List.findIdx?_eq_none_iff.mp h b
  rw [← Nat.add_sub_cancel' hp, ← List.getElem?_drop] at hb
  exact List.mem_of_getElem? hb

theorem findAt_eq_none (hs : s.Ready) (h : s.findAt bytes place = none) :
    ∀ p, place ≤ p → s.openers.find? (standsAt bytes p) = none := by
  fun_induction findAt s bytes place with
  | case1 place hlt hidx =>
    intro p hp
    exact find?_eq_none_of_all hs hidx hp
  | case2 place hlt skipped hidx kind mark hfind => cases h
  | case3 place hlt skipped hidx hfind ih =>
    intro p hp
    rcases Nat.lt_trichotomy p (place + skipped) with hbefore | rfl | hafter
    · exact find?_eq_none_of_skipped hs hidx hp hbefore
    · exact hfind
    · exact ih h p hafter
  | case4 place hlt =>
    intro p hp
    apply find?_eq_none hs
    intro b hb
    rw [List.getElem?_eq_none (by omega)] at hb
    cases hb

theorem findAt_eq_some (hs : s.Ready) (h : s.findAt bytes place = some (kind, span)) :
    place ≤ span.start ∧
      (∃ mark, s.openers.find? (standsAt bytes span.start) = some (kind, mark) ∧
        span.stop = span.start + mark.length) ∧
      ∀ p, place ≤ p → p < span.start → s.openers.find? (standsAt bytes p) = none := by
  fun_induction findAt s bytes place with
  | case1 place hlt hidx => cases h
  | case2 place hlt skipped hidx found mark hfind =>
    cases h
    refine ⟨Nat.le_add_right _ _, ⟨mark, hfind, rfl⟩, ?_⟩
    intro p hp hbefore
    exact find?_eq_none_of_skipped hs hidx hp hbefore
  | case3 place hlt skipped hidx hfind ih =>
    obtain ⟨hle, hmark, hno⟩ := ih h
    refine ⟨by omega, hmark, ?_⟩
    intro p hp hbefore
    rcases Nat.lt_trichotomy p (place + skipped) with hskip | rfl | hafter
    · exact find?_eq_none_of_skipped hs hidx hp hskip
    · exact hfind
    · exact hno p hafter hbefore
  | case4 place hlt => cases h

end Searcher

/-! ## The openers of a markup -/

namespace Markup

open Searcher

variable {m : Markup} {bytes : List UInt8} {source : List Char} {place start : Nat} {o : Opener}

theorem searcher_ready (m : Markup) : m.searcher.Ready := by
  intro entry hentry
  obtain ⟨o, ho, rfl⟩ := List.mem_map.mp hentry
  obtain ⟨c, cs, hmark⟩ := List.exists_cons_of_ne_nil (mark_ne_nil (mem_openers.mp ho))
  obtain ⟨b, rest, hbytes⟩ := List.exists_cons_of_ne_nil (String.utf8EncodeChar_ne_nil (c := c))
  have hhead : (o.mark.flatMap String.utf8EncodeChar).head? = some b := by
    rw [hmark, List.flatMap_cons, hbytes]
    rfl
  refine ⟨b, ?_, hhead⟩
  rw [searcher, List.mem_eraseDups, List.mem_mergeSort, List.mem_filterMap]
  exact ⟨_, hentry, hhead⟩

theorem standsAt_iff : standsAt bytes place (o.kind, encoded o.mark) = true ↔
    encoded o.mark <+: bytes.drop place ∧
      (o.kind = .line → place = 0 ∨ bytes[place - 1]? = some 10) := by
  unfold standsAt
  by_cases hline : o.kind = .line <;> simp [hline]

theorem opens_iff : m.Opens bytes place o ↔
    o ∈ m.openers ∧ standsAt bytes place (o.kind, encoded o.mark) = true := by
  rw [standsAt_iff, mem_openers]
  constructor
  · intro h
    exact ⟨h.known, h.stands, h.line⟩
  · rintro ⟨hknown, hstands, hline⟩
    exact ⟨hknown, hstands, hline⟩

def openerAt? (m : Markup) (bytes : List UInt8) (place : Nat) : Option Opener :=
  m.openers.find? fun o => standsAt bytes place (o.kind, encoded o.mark)

theorem not_opens (h : m.openerAt? bytes place = none) (o : Opener) : ¬ m.Opens bytes place o := by
  intro ho
  obtain ⟨hmem, hstands⟩ := opens_iff.mp ho
  exact List.find?_eq_none.mp h o hmem hstands

theorem opens_of_openerAt? (h : m.openerAt? bytes place = some o) : m.Opens bytes place o := by
  obtain ⟨hstands, -⟩ := List.find?_eq_some_iff_append.mp h
  exact opens_iff.mpr ⟨List.mem_of_find?_eq_some h, hstands⟩

theorem longest_of_openerAt? (h : m.openerAt? bytes place = some o) {p : Opener}
    (hp : m.Opens bytes place p) : p = o ∨ o.Before p := by
  obtain ⟨-, front, back, hsplit, hfront⟩ := List.find?_eq_some_iff_append.mp h
  obtain ⟨hmem, hstands⟩ := opens_iff.mp hp
  rw [hsplit, List.mem_append, List.mem_cons] at hmem
  rcases hmem with hmem | rfl | hmem
  · have hno := hfront p hmem
    rw [hstands] at hno
    cases hno
  · exact .inl rfl
  · have hpairs := m.openers_pairwise
    rw [hsplit, List.pairwise_append, List.pairwise_cons] at hpairs
    exact .inr (hpairs.2.1.1 p hmem)

theorem first_of_openerAt? (hle : start ≤ place) (h : m.openerAt? (encoded source) place = some o)
    (hno : ∀ p, start ≤ p → p < place → m.openerAt? (encoded source) p = none) :
    m.First source start o ⟨place, place + (encoded o.mark).length⟩ := by
  have hopens := opens_of_openerAt? h
  refine ⟨hle, hopens, rfl, ?_, fun p hp => longest_of_openerAt? h hp, hopens.inside⟩
  intro p q hp hq
  by_contra hlt
  exact not_opens (hno p hp (by simpa using hlt)) q hq

theorem find?_searcher (m : Markup) (bytes : List UInt8) (place : Nat) :
    m.searcher.openers.find? (standsAt bytes place) =
      (m.openerAt? bytes place).map fun o => (o.kind, encoded o.mark) := by
  rw [searcher, List.find?_map]
  rfl

theorem findAt_answers (m : Markup) (source : List Char) (start : Nat) :
    m.Answers source start (m.searcher.findAt (encoded source) start) := by
  constructor
  · intro kind span h
    obtain ⟨hle, ⟨mark, hfind, hstop⟩, hno⟩ := findAt_eq_some m.searcher_ready h
    rw [find?_searcher] at hfind
    obtain ⟨o, ho, heq⟩ := Option.map_eq_some_iff.mp hfind
    cases heq
    refine ⟨o, rfl, ?_⟩
    have hspan : span = ⟨span.start, span.start + (encoded o.mark).length⟩ := by rw [← hstop]
    rw [hspan]
    apply first_of_openerAt? hle ho
    intro p hp hlt
    have hnone := hno p hp hlt
    rwa [find?_searcher, Option.map_eq_none_iff] at hnone
  · intro h place o hle
    have hnone := findAt_eq_none m.searcher_ready h place hle
    rw [find?_searcher, Option.map_eq_none_iff] at hnone
    exact not_opens hnone o

end Markup

/-! ## The search over characters -/

theorem dropMark?_isSome {mark cs : List Char} : (dropMark? mark cs).isSome ↔ mark <+: cs := by
  rw [Option.isSome_iff_exists]
  constructor
  · rintro ⟨rest, hrest⟩
    exact ⟨rest, (dropMark?_eq_some hrest).symm⟩
  · rintro ⟨rest, rfl⟩
    exact ⟨rest, dropMark?_append mark rest⟩

theorem eq_or_past_of_split {a b d e : List Char} {c : Char} (h : a ++ c :: b = d ++ e)
    (hle : byteSize a ≤ byteSize d) : (d = a ∧ e = c :: b) ∨ byteSize a + c.utf8Size ≤ byteSize d := by
  obtain ⟨t, rfl, ht⟩ := prefix_of_byteSize_le h hle
  cases t with
  | nil => exact .inl ⟨List.append_nil a, ht.symm⟩
  | cons x t =>
    cases ht
    exact .inr (by simp)

theorem endsLine_iff {before rest : List Char} : EndsLine before ↔
    byteSize before = 0 ∨ (encoded (before ++ rest))[byteSize before - 1]? = some 10 := by
  have hnewline : encoded ['\n'] = [10] := by decide
  rcases List.eq_nil_or_concat before with rfl | ⟨front, c, hbefore⟩
  · exact iff_of_true (.inl rfl) (.inl rfl)
  · have hsize := c.utf8Size_pos
    have hend : EndsLine (front ++ [c]) ↔ c = '\n' := by simp [EndsLine]
    have hplace : byteSize (front ++ [c]) = byteSize front + c.utf8Size := by simp
    rw [List.concat_eq_append] at hbefore
    rw [hbefore, hend, hplace]
    constructor
    · rintro rfl
      right
      have hone : '\n'.utf8Size = 1 := rfl
      rw [hone, Nat.add_sub_cancel, List.append_assoc, encoded_append, encoded_append, hnewline,
        List.getElem?_append_right (by simp), length_encoded, Nat.sub_self]
      rfl
    · rintro (hzero | hbyte)
      · omega
      · have hstands : encoded ['\n'] <+:
            (encoded (front ++ [c] ++ rest)).drop (byteSize front + c.utf8Size - 1) := by
          rw [List.drop_eq_getElem?_toList_append, hbyte, hnewline]
          exact List.prefix_append _ _
        obtain ⟨d, e, hsource, hd⟩ := split_of_encoded (List.cons_ne_nil _ _) hstands
        rw [List.append_assoc] at hsource
        rcases eq_or_past_of_split hsource (by omega) with ⟨-, heq⟩ | hpast
        · cases heq
          rfl
        · omega

namespace Opening

open Token Searcher Markup

variable {m : Markup} {before rest : List Char} {o : Opener} {lineStart : Bool}

def located (f : Opening) (start : Nat) : TagKind × Span :=
  (f.opener.kind, ⟨start + byteSize f.before, start + byteSize f.before + byteSize f.opener.mark⟩)

theorem at?_isSome (hline : lineStart = true ↔ EndsLine before) : (o.at? lineStart rest).isSome =
    standsAt (encoded (before ++ rest)) (byteSize before) (o.kind, encoded o.mark) := by
  rw [Bool.eq_iff_iff, standsAt_iff, ← endsLine_iff, ← hline, encoded_append,
    List.drop_left' (length_encoded before), encoded_prefix, ← dropMark?_isSome]
  unfold Opener.at?
  by_cases hkind : o.kind = .line <;> simp [hkind]
  cases lineStart <;> simp

theorem findSome?_at? (hline : lineStart = true ↔ EndsLine before) (rest : List Char)
    (os : List Opener) :
    (os.findSome? fun o => (o.at? lineStart rest).map (o, ·)).map (·.1) =
      os.find? fun o =>
        standsAt (encoded (before ++ rest)) (byteSize before) (o.kind, encoded o.mark) := by
  induction os with
  | nil => rfl
  | cons o os ih =>
    rw [List.findSome?_cons, List.find?_cons, ← at?_isSome hline]
    cases o.at? lineStart rest with
    | none => exact ih
    | some after => rfl

theorem find?_answers (m : Markup) (hline : lineStart = true ↔ EndsLine before) (rest : List Char) :
    m.Answers (before ++ rest) (byteSize before)
      ((find? m.openers lineStart rest).map fun f => f.located (byteSize before)) := by
  induction rest generalizing before lineStart with
  | nil =>
    constructor
    · rintro kind span ⟨⟩
    · intro _ place o hle ho
      obtain ⟨front, back, hsource, rfl⟩ := ho.split
      obtain ⟨d, ds, hmark⟩ := List.exists_cons_of_ne_nil (mark_ne_nil ho.known)
      have hd := d.utf8Size_pos
      rw [List.append_nil] at hsource
      rw [hsource, hmark] at hle
      simp at hle
      omega
  | cons c cs ih =>
    have hhere := findSome?_at? hline (c :: cs) m.openers
    rw [find?]
    split
    · next o after hfound =>
      rw [hfound] at hhere
      constructor
      · rintro kind span ⟨⟩
        refine ⟨o, rfl, ?_⟩
        rw [← length_encoded o.mark]
        apply first_of_openerAt? (Nat.le_refl _) hhere.symm
        intro p hp hlt
        omega
      · rintro ⟨⟩
    · next hfound =>
      rw [hfound] at hhere
      have hnext : (c == '\n') = true ↔ EndsLine (before ++ [c]) := by simp [EndsLine]
      have hafter := ih hnext
      rw [List.append_assoc] at hafter
      have hlocated : ∀ f : Opening, f.located (byteSize (before ++ [c])) =
          located { f with before := c :: f.before } (byteSize before) := by
        intro f
        simp [located, Nat.add_assoc]
      simp only [hlocated] at hafter
      rw [Option.map_map]
      apply hafter.widen
      · simp
      · intro place p hle hlt hp
        obtain ⟨front, back, hsource, rfl⟩ := hp.split
        rcases eq_or_past_of_split hsource hle with ⟨rfl, -⟩ | hpast
        · exact not_opens hhere.symm p hp
        · simp at hlt
          omega

end Opening

/-! ## From a place of a source on -/

/-- The search from the end of some text in a source finds the first place where an opener stands, with
the longest one there, or nothing if there is no such place. The scan finds the same there. -/
theorem Searcher.findAt_leftmost_longest (m : Markup) (before rest : List Char) :
    (∀ kind span,
      m.searcher.findAt (encoded (before ++ rest)) (byteSize before) = some (kind, span) ↔
        ∃ o, o.kind = kind ∧ m.First (before ++ rest) (byteSize before) o span) ∧
    (m.searcher.findAt (encoded (before ++ rest)) (byteSize before) = none ↔
      m.Nowhere (before ++ rest) (byteSize before)) ∧
    m.searcher.findAt (encoded (before ++ rest)) (byteSize before) =
      (Opening.find? m.openers
        ((Token.Cursor.start (before ++ rest)).past before rest).lineStart rest).map
          fun f => f.located (byteSize before) := by
  have hbytes := m.findAt_answers (before ++ rest) (byteSize before)
  have hline : ((Token.Cursor.start (before ++ rest)).past before rest).lineStart = true ↔
      EndsLine before := by
    rcases List.eq_nil_or_concat before with rfl | ⟨front, c, hbefore⟩
    · exact iff_of_true rfl (.inl rfl)
    · rw [List.concat_eq_append] at hbefore
      simp [hbefore, Token.Cursor.past, EndsLine]
  have hchars := Opening.find?_answers m hline rest
  exact ⟨fun _ _ => hbytes.eq_some_iff, hbytes.eq_none_iff, hbytes.unique hchars⟩

end Stencil

import Stencil.Proofs.Literals.Cutting
import Stencil.Proofs.Printing.Read
/-!
# Literals as operands

The tokens that a JSON text is cut into are read as one operand: the literal of the value that the text
stands for. An array or an object is read from its part of the source, which is the whole text.
-/

namespace Stencil

open Token

/-! ## Spans -/

namespace Token.Cuts

variable {m : Markup} {mode mode' : Mode} {c d : Cursor} {t u : Token} {ts : List Token}
  {blanks cs source : List Char}

theorem covers (h : Cuts m mode c ts mode' d) (hc : c.At source)
    (hrest : c.rest = blanks ++ (cs ++ d.rest)) :
    Span.Covers ⟨c.place + byteSize blanks, d.place⟩ source cs := by
  obtain ⟨before, hsource, hplace⟩ := hc
  obtain ⟨before', hsource', hplace'⟩ := h.at_source ⟨before, hsource, hplace⟩
  rw [hrest, ← List.append_assoc, ← List.append_assoc] at hsource
  have hbefore := List.append_cancel_right (hsource'.symm.trans hsource)
  refine ⟨before ++ blanks, d.rest, by rw [hsource, List.append_assoc], ?_⟩
  rw [← hplace', hbefore, ← hplace]
  simp only [byteSize_append]

theorem join_eq (h : Cuts m mode c (t :: ts) mode' d) (hmode : mode.Ready m) (hu : u ∈ ts)
    (hstop : u.span.stop = d.place) : t.span.join u.span = ⟨t.span.start, d.place⟩ := by
  have htiles := h.tiles hmode
  obtain ⟨-, -, htspan, -⟩ := htiles.takes t List.mem_cons_self
  obtain ⟨-, -, huspan, -⟩ := htiles.takes u (List.mem_cons_of_mem t hu)
  have htu := (List.pairwise_cons.mp htiles.ascend).1 u hu
  unfold Span.join
  congr 1 <;> omega

end Token.Cuts

/-! ## Brackets -/

namespace Json

theorem value?_of_read? {cs : List Char} {v : Value} (h : read? (String.ofList cs) = some v) :
    ∃ n rest, value? n 127 cs = some (v, rest) ∧ ∀ c ∈ rest, isBlank c := by
  rw [read?, String.toList_ofList] at h
  split at h
  · next w rest hvalue =>
    split at h
    · next hempty =>
      cases h
      refine ⟨_, rest, hvalue, ?_⟩
      rw [List.isEmpty_iff] at hempty
      have hskipped := skip_eq rest
      rw [hempty, List.append_nil] at hskipped
      rw [hskipped]
      exact isBlank_of_skipped rest
    · cases h
  · cases h

theorem takeWhile_blanks {blanks cs : List Char} {x : Char} (hblanks : ∀ c ∈ blanks, isBlank c)
    (hx : isBlank x = false) : (blanks ++ x :: cs).takeWhile isBlank = blanks := by
  rw [List.takeWhile_append_of_pos hblanks, List.takeWhile_cons_of_neg (by rw [hx]; decide),
    List.append_nil]

theorem value?_blanks {blanks : List Char} (hblanks : ∀ c ∈ blanks, isBlank c) (n levels : Nat)
    (cs : List Char) : value? n levels (blanks ++ cs) = value? n levels cs := by
  have hskip : skip (blanks ++ cs) = skip cs := List.dropWhile_append_of_pos hblanks
  cases n with
  | zero => rfl
  | succ n => rw [value?, value?, hskip]

variable {m : Markup} {c d : Cursor} {b b' : Bool} {blanks cs : List Char} {t : Token}
  {ts more : List Token} {v : Value} {place : Nat}

theorem UpTo.skipBalanced (h : UpTo place ts) (g : Grammar) (wanted : Kind) (more : List Token) :
    ∃ u ∈ ts, u.span.stop = place ∧ g.skipBalanced wanted 0 (ts ++ more) = .ok (u.span, more) := by
  obtain ⟨inner, u, rfl, hinner, hu, hstop⟩ := h
  refine ⟨u, List.mem_append_right _ List.mem_cons_self, hstop, ?_⟩
  rw [List.append_assoc, hinner, List.singleton_append, Grammar.skipBalanced.eq_def]
  rcases hu with hu | hu <;> simp only [hu]

end Json

namespace Grammar

variable {m : Markup} {g : Grammar} {c d : Cursor} {b b' : Bool} {blanks cs : List Char} {t : Token}
  {ts more : List Token} {v : Value} {place : Nat}

theorem structuredOperand_written (hm : blockOpener ∈ m.openers)
    (hcuts : Cuts m (.tag blockOpener b) c (t :: ts) (.tag blockOpener b') d)
    (hstart : t.span.start = c.place + byteSize blanks) (hupto : Json.UpTo d.place ts)
    (hc : c.At g.source) (hrest : c.rest = blanks ++ (cs ++ d.rest))
    (hread : Json.read? (String.ofList cs) = some v) (wanted : Kind) (more : List Token) :
    ∃ span, g.structuredOperand wanted t (ts ++ more) = .ok (⟨.literal v span, span⟩, more) := by
  obtain ⟨u, hu, hstop, hskip⟩ := hupto.skipBalanced g wanted more
  have hspan := hcuts.join_eq hm hu hstop
  rw [hstart] at hspan
  have hcovers := hcuts.covers hc hrest
  refine ⟨t.span.join u.span, ?_⟩
  rw [structuredOperand, hskip, except_ok_bind]
  dsimp only
  rw [hspan, readSlice, hcovers.slice, Option.getD_some, readJson, hread]
  rfl

theorem operand_written (hm : blockOpener ∈ m.openers)
    (hcuts : Cuts m (.tag blockOpener b) c ts (.tag blockOpener b') d)
    (hwritten : Json.Written v c d blanks ts) (hc : c.At g.source)
    (hrest : c.rest = blanks ++ (cs ++ d.rest)) (hread : Json.read? (String.ofList cs) = some v)
    (hmore : (g.head more).kind ≠ .leftParen) (n : Nat) :
    ∃ span, g.operand (n + 1) (ts ++ more) = .ok (⟨.literal v span, span⟩, more) := by
  cases hwritten with
  | @word t ht hword =>
    refine ⟨t.span, ?_⟩
    simp [operand, head_cons, ht.kind, hmore, hword]
  | @plain t kind hkind ht =>
    have htext : String.ofList cs = t.text := by
      have happend := hrest.symm.trans ht.text
      rw [List.append_cancel_right (List.append_cancel_left happend), String.ofList_toList]
    rw [htext] at hread
    refine ⟨t.span, ?_⟩
    have hjson : ∀ what, jsonOperand what t more = .ok (⟨.literal v t.span, t.span⟩, more) := by
      intro what
      rw [jsonOperand, readJson, hread]
      rfl
    rcases hkind with rfl | rfl <;> simp [operand, head_cons, ht.kind, hjson]
  | @enclosed t us hopen hstart hupto =>
    have hstructured (wanted : Kind) :=
      structuredOperand_written hm hcuts hstart hupto hc hrest hread wanted more
    rcases hopen with hopen | hopen
    · obtain ⟨span, hspan⟩ := hstructured .rightBracket
      exact ⟨span, by simp [operand, head_cons, hopen, hspan]⟩
    · obtain ⟨span, hspan⟩ := hstructured .rightBrace
      exact ⟨span, by simp [operand, head_cons, hopen, hspan]⟩

theorem written_opens (hwritten : Json.Written v c d blanks ts) :
    ∃ t us, ts = t :: us ∧ Opens .operand t := by
  have hopens : ∀ {t : Token}, t.kind ≠ .word → t.kind ≠ .minus → t.kind ≠ .rightParen →
      Opens .operand t := by
    intro t hword hminus hparen
    exact ⟨fun _ => by simp [keyword?, hword], fun _ => hminus, hparen⟩
  cases hwritten with
  | @word t ht hword =>
    refine ⟨t, [], rfl, fun _ hnot => ?_, fun _ => by simp [ht.kind], by simp [ht.kind]⟩
    rw [wordOperand, hnot] at hword
    cases hword
  | @plain t kind hkind ht =>
    refine ⟨t, [], rfl, ?_⟩
    rcases hkind with rfl | rfl <;> exact hopens (by simp [ht.kind]) (by simp [ht.kind]) (by simp [ht.kind])
  | @enclosed t us hopen =>
    refine ⟨t, us, rfl, ?_⟩
    rcases hopen with hopen | hopen <;> exact hopens (by simp [hopen]) (by simp [hopen]) (by simp [hopen])

theorem expr_written (hm : blockOpener ∈ m.openers)
    (hcuts : Cuts m (.tag blockOpener b) c ts (.tag blockOpener b') d)
    (hwritten : Json.Written v c d blanks ts) (hc : c.At g.source)
    (hrest : c.rest = blanks ++ (cs ++ d.rest)) (hread : Json.read? (String.ofList cs) = some v)
    {u : Token} {kind : TagKind} (hu : u.kind = .closing kind) (more : List Token) :
    ∃ span place, g.expr (ts ++ u :: more) = .ok (⟨.literal v span, place⟩, u :: more) := by
  have hoperand : ∀ n, 0 + Rank.depth .operand ≤ n →
      Meets Part.tree (some (.literal v (.point 0))) (u :: more) (g.read .operand n (ts ++ u :: more)) := by
    intro n hn
    obtain ⟨n, rfl⟩ : ∃ k, n = k + 1 := ⟨n - 1, by simp only [Rank.depth] at hn; omega⟩
    have hnoparen : (g.head (u :: more)).kind ≠ .leftParen := by simp [head_cons, hu]
    obtain ⟨span, hspan⟩ := operand_written hm hcuts hwritten hc hrest hread hnoparen n
    exact .inl ⟨⟨.literal v span, span⟩, rfl, hspan⟩
  obtain ⟨t, us, rfl, hopens⟩ := written_opens hwritten
  have hstops : Stops .either (g.head (u :: more)) := stops_of_kind (.inr (.inr ⟨kind, hu⟩))
  have hfuel : 0 + Rank.depth .either ≤ fuel (t :: us ++ u :: more) := by
    simp only [fuel, List.length_append, List.length_cons, Rank.depth]
    omega
  rcases read_looser (by decide) hopens hstops hoperand _ hfuel with ⟨p, hp, hexpr⟩ | ⟨hnone, -⟩
  · obtain ⟨e, place⟩ := p
    have htree : Expr.literal v (.point 0) = e.erase := Option.some.inj hp
    cases e with
    | literal w span =>
      rw [Expr.erase, Expr.literal.injEq] at htree
      obtain ⟨rfl, -⟩ := htree
      exact ⟨span, place, hexpr⟩
    | _ => simp only [Expr.erase, reduceCtorEq] at htree
  · cases hnone

end Grammar

end Stencil

import Stencil.Text.Position
import Stencil.Proofs.Text.Bytes
/-!
# The order of positions

Positions are ordered by their lines, and within a line by their columns. Each character leads to a
greater position, so that two places in a source never have the same one.
-/

namespace Stencil

namespace Position

instance : LT Position where
  lt p q := p.line < q.line ∨ p.line = q.line ∧ p.column < q.column

variable {p q r : Position}

theorem lt_iff : p < q ↔ p.line < q.line ∨ p.line = q.line ∧ p.column < q.column := Iff.rfl

theorem not_lt_self (p : Position) : ¬ p < p := by
  rw [lt_iff]
  omega

theorem lt_trans (hpq : p < q) (hqr : q < r) : p < r := by
  rw [lt_iff] at *
  omega

/-! ## One more character -/

def advance (p : Position) (c : Char) : Position :=
  if c = '\n' then ⟨p.line + 1, 1⟩ else ⟨p.line, p.column + 1⟩

theorem lt_advance (p : Position) (c : Char) : p < p.advance c := by
  unfold advance
  rw [lt_iff]
  split
  · exact .inl (Nat.lt_succ_self _)
  · exact .inr ⟨rfl, Nat.lt_succ_self _⟩

theorem after_concat (cs : List Char) (c : Char) : after (cs ++ [c]) = (after cs).advance c := by
  unfold after advance lastLine
  by_cases hc : c = '\n'
  · simp [hc]
  · simp [hc]

/-! ## More text -/

theorem after_lt_append {t : List Char} (ht : t ≠ []) (cs : List Char) :
    after cs < after (cs ++ t) := by
  induction t generalizing cs with
  | nil => exact absurd rfl ht
  | cons c t ih =>
    have hstep : after cs < after (cs ++ [c]) := by
      rw [after_concat]
      exact lt_advance _ c
    by_cases hnil : t = []
    · rw [hnil]
      exact hstep
    · have hrest : after (cs ++ [c]) < after (cs ++ [c] ++ t) := ih hnil _
      rw [List.append_assoc, List.singleton_append] at hrest
      exact lt_trans hstep hrest

/-! ## Places in a source -/

variable {source : String} {a b : source.Pos}

def ofPos (a : source.Pos) : Position := ofPlace source.toList a.offset.byteIdx

theorem place_eq {front back : String} (h : a.Splits front back) :
    a.offset.byteIdx = byteSize front.toList := by
  rw [h.offset_eq_rawEndPos, byteSize_toList, String.byteIdx_rawEndPos]

theorem toList_eq {front back : String} (h : a.Splits front back) :
    source.toList = front.toList ++ back.toList := by
  rw [← String.toList_append, ← h.eq_append]

theorem ofPos_splits {front back : String} (h : a.Splits front back) :
    ofPos a = after front.toList := by
  unfold ofPos ofPlace
  rw [place_eq h, toList_eq h, cut?_append]

theorem ofPos_lt (h : a < b) : ofPos a < ofPos b := by
  have hplaces : a.offset.byteIdx < b.offset.byteIdx := h
  rw [place_eq a.splits, place_eq b.splits] at hplaces
  obtain ⟨t, ht, -⟩ := prefix_of_byteSize_le ((toList_eq a.splits).symm.trans (toList_eq b.splits))
    (Nat.le_of_lt hplaces)
  rw [ofPos_splits a.splits, ofPos_splits b.splits, ht]
  refine after_lt_append ?_ _
  -- nothing lies between only if the places are the same
  rintro rfl
  rw [ht, List.append_nil] at hplaces
  exact Nat.lt_irrefl _ hplaces

theorem ofPos_lt_iff : ofPos a < ofPos b ↔ a < b := by
  refine ⟨fun h => ?_, ofPos_lt⟩
  rcases Std.lt_trichotomy a b with hlt | rfl | hgt
  · exact hlt
  · exact absurd h (not_lt_self _)
  · exact absurd (lt_trans h (ofPos_lt hgt)) (not_lt_self _)

theorem eq_of_ofPos (h : ofPos a = ofPos b) : a = b := by
  rcases Std.lt_trichotomy a b with hlt | heq | hgt
  · exact absurd (ofPos_lt hlt) (h ▸ not_lt_self _)
  · exact heq
  · exact absurd (ofPos_lt hgt) (h ▸ not_lt_self _)

end Position

end Stencil

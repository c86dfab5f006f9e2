import Stencil.Text.Blank
import Stencil.Text.Position
/-!
# The last line of a text

What stands behind the last newline, or all of a text without one.
-/

namespace Stencil

def EndsLine (cs : List Char) : Prop := cs = [] ∨ cs.getLast? = some '\n'

variable {a b cs : List Char}

theorem lastLine_append (h : '\n' ∉ b) : lastLine (a ++ b) = lastLine a ++ b := by
  have hb : ∀ c ∈ b.reverse, decide (c ≠ '\n') = true := by
    intro c hc
    rw [decide_eq_true_eq]
    rintro rfl
    exact h (List.mem_reverse.mp hc)
  rw [lastLine, List.reverse_append, List.takeWhile_append_of_pos hb, List.reverse_append,
    List.reverse_reverse]
  rfl

theorem EndsLine.lastLine_eq_nil (h : EndsLine cs) : lastLine cs = [] := by
  rcases h with rfl | h
  · rfl
  · obtain ⟨front, rfl⟩ := List.getLast?_eq_some_iff.mp h
    simp [lastLine]

theorem lastLine_of_endsLine (ha : EndsLine a) (hb : '\n' ∉ b) : lastLine (a ++ b) = b := by
  rw [lastLine_append hb, ha.lastLine_eq_nil, List.nil_append]

theorem newline_not_mem_lastLine (cs : List Char) : '\n' ∉ lastLine cs := by
  intro h
  have hkept := List.all_eq_true.mp List.all_takeWhile '\n' (List.mem_reverse.mp h)
  simp at hkept

theorem append_lastLine (cs : List Char) : ∃ front, cs = front ++ lastLine cs ∧ EndsLine front := by
  refine ⟨(cs.reverse.dropWhile (· ≠ '\n')).reverse, ?_, ?_⟩
  · rw [lastLine, ← List.reverse_append, List.takeWhile_append_dropWhile, List.reverse_reverse]
  · unfold EndsLine
    rw [List.reverse_eq_nil_iff, List.getLast?_reverse]
    have hhead := List.head?_dropWhile_not (fun c => decide (c ≠ '\n')) cs.reverse
    cases h : cs.reverse.dropWhile (fun c => decide (c ≠ '\n')) with
    | nil => exact .inl rfl
    | cons c rest =>
      rw [h] at hhead
      refine .inr ?_
      simpa using hhead

theorem Blank.dropEnd_append (p : Char → Bool) (cs : List Char) :
    ∃ dropped, cs = dropEnd p cs ++ dropped ∧ ∀ c ∈ dropped, p c := by
  refine ⟨(cs.reverse.takeWhile p).reverse, ?_, ?_⟩
  · rw [dropEnd, ← List.reverse_append, List.takeWhile_append_dropWhile, List.reverse_reverse]
  · intro c hc
    exact List.all_eq_true.mp List.all_takeWhile c (List.mem_reverse.mp hc)

theorem Blank.getLast?_dropEnd {p : Char → Bool} {c : Char} (h : (dropEnd p cs).getLast? = some c) :
    p c = false := by
  have hhead := List.head?_dropWhile_not p cs.reverse
  rw [dropEnd, List.getLast?_reverse] at h
  rw [h] at hhead
  exact hhead

end Stencil

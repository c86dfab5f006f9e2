import Stencil.Text.Position
import Stencil.Proofs.Text.Line
/-!
# The lines of a text

The line that a text begins with, and the lines behind a part that ends one. A line that a newline ends
has no carriage return in front of that newline.
-/

namespace Stencil

def FollowsLine (cs : List Char) : Prop := cs = [] ∨ ∃ rest, cs = '\n' :: rest

variable {line below a b cs : List Char} {c : Char}

theorem exists_first_line (cs : List Char) :
    ∃ line below, cs = line ++ below ∧ '\n' ∉ line ∧ FollowsLine below := by
  induction cs with
  | nil => exact ⟨[], [], rfl, List.not_mem_nil, .inl rfl⟩
  | cons c cs ih =>
    by_cases hc : c = '\n'
    · exact ⟨[], c :: cs, rfl, List.not_mem_nil, .inr ⟨cs, by rw [hc]⟩⟩
    · obtain ⟨line, below, rfl, hline, hbelow⟩ := ih
      refine ⟨c :: line, below, rfl, ?_, hbelow⟩
      rw [List.mem_cons, not_or]
      exact ⟨Ne.symm hc, hline⟩

/-! ## Carriage returns -/

def withoutReturn (line : List Char) : List Char :=
  if line.getLast? = some '\r' then line.dropLast else line

theorem withoutReturn_append (h : b ≠ []) : withoutReturn (a ++ b) = a ++ withoutReturn b := by
  have hlast : (a ++ b).getLast? = b.getLast? := by
    rw [List.getLast?_append, List.getLast?_eq_some_getLast h]
    rfl
  unfold withoutReturn
  rw [hlast, List.dropLast_append_of_ne_nil h]
  split <;> rfl

theorem length_withoutReturn_le (line : List Char) :
    (withoutReturn line).length ≤ line.length := by
  unfold withoutReturn
  split <;> simp

/-! ## The first line -/

theorem lines_cons (hc : c ≠ '\n') (hreturn : c = '\r' → cs.head? ≠ some '\n') :
    lines (c :: cs) = match lines cs with
      | [] => [[c]]
      | l :: ls => (c :: l) :: ls := by
  conv => lhs; unfold lines
  split
  · next h => cases h
  · next h =>
    cases h
    exact absurd rfl hc
  · next h =>
    cases h
    exact absurd rfl (hreturn rfl)
  · next h =>
    cases h
    rfl

theorem lines_newline (h : '\n' ∉ line) (cs : List Char) :
    lines (line ++ '\n' :: cs) = withoutReturn line :: lines cs := by
  induction line with
  | nil => rfl
  | cons c line ih =>
    rw [List.mem_cons, not_or] at h
    obtain ⟨hc, hline⟩ := h
    cases line with
    | nil =>
      by_cases hreturn : c = '\r'
      · subst hreturn
        rfl
      · rw [List.singleton_append, lines_cons (Ne.symm hc) (absurd · hreturn)]
        simp [lines, withoutReturn, hreturn]
    | cons d line =>
      have hd : d ≠ '\n' := fun hd => hline (List.mem_cons.mpr (.inl hd.symm))
      have hkept : withoutReturn (c :: d :: line) = c :: withoutReturn (d :: line) :=
        withoutReturn_append (a := [c]) (List.cons_ne_nil d line)
      rw [List.cons_append, lines_cons (Ne.symm hc) (by simpa using fun _ => hd), ih hline, hkept]

theorem lines_last (h : '\n' ∉ line) (hnil : line ≠ []) : lines line = [line] := by
  induction line with
  | nil => exact absurd rfl hnil
  | cons c line ih =>
    rw [List.mem_cons, not_or] at h
    obtain ⟨hc, hline⟩ := h
    have hhead : line.head? ≠ some '\n' := fun hhead => hline (List.mem_of_head? hhead)
    rw [lines_cons (Ne.symm hc) fun _ => hhead]
    by_cases hrest : line = []
    · rw [hrest]
      rfl
    · rw [ih hline hrest]

theorem head_lines (hline : '\n' ∉ line) (hbelow : FollowsLine below) :
    (lines (line ++ below)).head?.getD [] = if below = [] then line else withoutReturn line := by
  rcases hbelow with rfl | ⟨rest, rfl⟩
  · rw [List.append_nil, if_pos rfl]
    by_cases hnil : line = []
    · rw [hnil]
      rfl
    · rw [lines_last hline hnil]
      rfl
  · rw [lines_newline hline]
    rfl

/-! ## The lines behind a part -/

theorem EndsLine.of_append (h : EndsLine (a ++ '\n' :: b)) : EndsLine b := by
  cases b with
  | nil => exact .inl rfl
  | cons c b =>
    rcases h with h | h
    · simp at h
    · refine .inr ?_
      simpa using h

theorem drop_lines (h : EndsLine a) (cs : List Char) :
    (lines (a ++ cs)).drop (a.count '\n') = lines cs := by
  induction hn : a.count '\n' generalizing a with
  | zero =>
    rcases h with rfl | h
    · rfl
    · exact absurd (List.mem_of_getLast? h) (List.count_eq_zero.mp hn)
  | succ n ih =>
    have hmem : '\n' ∈ a := List.count_pos_iff.mp (by omega)
    obtain ⟨line, rest, rfl, hline⟩ := List.eq_append_cons_of_mem hmem
    rw [List.count_append, List.count_cons_self, List.count_eq_zero.mpr hline, Nat.zero_add] at hn
    rw [List.append_assoc, List.cons_append, lines_newline hline, List.drop_succ_cons,
      ih h.of_append (Nat.succ.inj hn)]

end Stencil

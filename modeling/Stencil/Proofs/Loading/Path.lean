import Stencil.Markup
import Stencil.Path
/-!
# Normal paths

A normal path that does not start at the top is some steps up with some names behind them. Cut at its
slashes it gives these parts again.
-/

namespace Stencil

/-! ## Cutting at a separator -/

namespace PathStyle

variable {sep : Char}

theorem parts_ne_nil (cs : List Char) : parts sep cs ≠ [] := by
  cases cs with
  | nil => simp [parts]
  | cons c cs =>
    simp only [parts]
    split
    · simp
    · split <;> simp

theorem parts_append (cs ds : List Char) :
    parts sep (cs ++ sep :: ds) = parts sep cs ++ parts sep ds := by
  induction cs with
  | nil => simp [parts]
  | cons c cs ih =>
    rw [List.cons_append]
    simp only [parts]
    rw [ih]
    split
    · simp
    · cases hcs : parts sep cs with
      | nil => exact absurd hcs (parts_ne_nil cs)
      | cons p ps => simp

end PathStyle

namespace Path

theorem parts_ne_nil (cs : List Char) : parts cs ≠ [] := by
  cases cs with
  | nil => simp [parts]
  | cons c cs =>
    simp only [parts]
    split
    · simp
    · split <;> simp

theorem parts_append (cs ds : List Char) {c : Char} (hc : isSeparator c = true) :
    parts (cs ++ c :: ds) = parts cs ++ parts ds := by
  induction cs with
  | nil => simp [parts, hc]
  | cons d cs ih =>
    simp only [List.cons_append, parts]
    rw [ih]
    split
    · simp
    · cases hcs : parts cs with
      | nil => exact absurd hcs (parts_ne_nil cs)
      | cons p ps => simp

def Solid (part : List Char) : Prop := ∀ c ∈ part, isSeparator c = false

theorem Solid.slash {part : List Char} (h : Solid part) : '/' ∉ part := by
  intro hmem
  have := h _ hmem
  simp [isSeparator] at this

theorem solid_parts (cs : List Char) : ∀ p ∈ parts cs, Solid p := by
  induction cs with
  | nil => simp [parts, Solid]
  | cons c cs ih =>
    simp only [parts]
    split
    · simpa [Solid] using ih
    · next hc =>
      cases hcs : parts cs with
      | nil => simpa [Solid] using hc
      | cons p ps =>
        rw [hcs] at ih
        simp only [List.forall_mem_cons, Solid] at ih ⊢
        exact ⟨⟨by simpa using hc, ih.1⟩, ih.2⟩

/-! ## Normal parts -/

structure Inward (part : List Char) : Prop where
  ne_nil : part ≠ []
  ne_dot : part ≠ ['.']
  ne_up : part ≠ up
  slash : '/' ∉ part

def Settled (place : List (List Char)) : Prop :=
  ∃ inward n, place = inward ++ List.replicate n up ∧ ∀ part ∈ inward, Inward part

theorem step_settled {place : List (List Char)} {part : List Char} (absolute : Bool)
    (h : Settled place) (hpart : '/' ∉ part) : Settled (step absolute place part) := by
  obtain ⟨inward, n, rfl, hinward⟩ := h
  unfold step
  split
  · exact ⟨inward, n, rfl, hinward⟩
  · next hmove =>
    rw [not_or] at hmove
    split
    · next hup =>
      exact ⟨part :: inward, n, rfl,
        List.forall_mem_cons.mpr ⟨⟨hmove.1, hmove.2, hup, hpart⟩, hinward⟩⟩
    · cases inward with
      | nil =>
        -- Steps up pile up at the start of the path, unless this is the top.
        refine ⟨[], if absolute then n else n + 1, ?_, nofun⟩
        cases n <;> cases absolute <;> simp [List.replicate_succ]
      | cons last rest =>
        have hlast := (hinward last List.mem_cons_self).ne_up
        exact ⟨rest, n, by simp [hlast], fun part hp => hinward part (List.mem_cons_of_mem _ hp)⟩

end Path

end Stencil

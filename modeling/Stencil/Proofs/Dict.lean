import Stencil.Dict
/-!
# Entries of dictionaries

What can be found after an insertion or a merge. The order of the entries plays no part in it.
-/

namespace Stencil.Dict

variable {d e : Dict α} {k key : String} {x y : α}

theorem mem_of_find? (h : d.find? key = some x) : (key, x) ∈ d := by
  induction d with
  | nil => cases h
  | cons entry rest ih =>
    obtain ⟨k, y⟩ := entry
    rw [find?, List.lookup_cons] at h
    split at h
    · next hk =>
      cases h
      rw [beq_iff_eq.mp hk]
      exact List.mem_cons_self
    · exact List.mem_cons_of_mem _ (ih h)

theorem has_of_find? (h : d.find? key = some x) : d.has key := by
  rw [has, h]
  rfl

theorem has_iff : d.has key ↔ ∃ x, d.find? key = some x := Option.isSome_iff_exists

@[simp] theorem find?_cons_self : find? ((key, x) :: d) key = some x := by
  simp [find?]

theorem find?_cons_ne (h : k ≠ key) : find? ((key, x) :: d) k = d.find? k := by
  have hb : (k == key) = false := by simpa using h
  simp [find?, List.lookup_cons, hb]

@[simp] theorem find?_insert_self : (d.insert key x).find? key = some x := by
  induction d with
  | nil => simp [insert]
  | cons entry rest ih =>
    obtain ⟨k, y⟩ := entry
    rw [insert]
    split
    · simp
    · simp
    · next hgt =>
      have hne : key ≠ k := by
        rintro rfl
        rw [Std.ReflOrd.compare_self] at hgt
        cases hgt
      rw [find?_cons_ne hne, ih]

theorem find?_insert_ne (h : k ≠ key) : (d.insert key x).find? k = d.find? k := by
  induction d with
  | nil => rw [insert, find?_cons_ne h]
  | cons entry rest ih =>
    obtain ⟨k', y⟩ := entry
    rw [insert]
    split
    · exact find?_cons_ne h
    · next heq =>
      rw [Std.LawfulEqOrd.eq_of_compare heq] at h
      rw [find?_cons_ne (by rwa [Std.LawfulEqOrd.eq_of_compare heq]), find?_cons_ne h]
    · by_cases hk : k = k'
      · subst hk
        simp
      · rw [find?_cons_ne hk, find?_cons_ne hk, ih]

theorem mem_insert {entry : String × α} (h : entry ∈ d.insert key x) :
    entry = (key, x) ∨ entry ∈ d := by
  induction d with
  | nil => exact .inl (List.mem_singleton.mp h)
  | cons first rest ih =>
    obtain ⟨k, y⟩ := first
    rw [insert] at h
    split at h
    · exact List.mem_cons.mp h
    · rcases List.mem_cons.mp h with h | h
      · exact .inl h
      · exact .inr (List.mem_cons_of_mem _ h)
    · rcases List.mem_cons.mp h with h | h
      · exact .inr (h ▸ List.mem_cons_self)
      · exact (ih h).imp_right (List.mem_cons_of_mem _)

theorem has_insert_self : (d.insert key x).has key := has_of_find? find?_insert_self

theorem has_insert (h : d.has k) : (d.insert key x).has k := by
  by_cases hk : k = key
  · subst hk
    exact has_insert_self
  · rw [has, find?_insert_ne hk]
    exact h

theorem mem_mergeNew {entry : String × α} (h : entry ∈ d.mergeNew e) : entry ∈ d ∨ entry ∈ e := by
  induction e generalizing d with
  | nil => exact .inl h
  | cons first rest ih =>
    obtain ⟨k, y⟩ := first
    rcases ih h with h | h
    · dsimp only at h
      split at h
      · exact .inl h
      · rcases mem_insert h with rfl | h
        · exact .inr List.mem_cons_self
        · exact .inl h
    · exact .inr (List.mem_cons_of_mem _ h)

theorem has_mergeNew_left (h : d.has k) : (d.mergeNew e).has k := by
  induction e generalizing d with
  | nil => exact h
  | cons first rest ih =>
    apply ih
    dsimp only
    split
    · exact h
    · exact has_insert h

theorem has_mergeNew_right (h : e.has k) : (d.mergeNew e).has k := by
  induction e generalizing d with
  | nil => cases h
  | cons first rest ih =>
    obtain ⟨key, y⟩ := first
    by_cases hk : k = key
    · subst hk
      apply has_mergeNew_left (e := rest)
      dsimp only
      split
      · next hd => exact hd
      · exact has_insert_self
    · rw [has, find?_cons_ne hk] at h
      exact ih h

theorem find?_of_not_has (h : ¬ d.has k) : d.find? k = none := by
  rw [has, Option.not_isSome_iff_eq_none] at h
  exact h

theorem find?_mergeNew : (d.mergeNew e).find? k = (d.find? k).or (e.find? k) := by
  induction e generalizing d with
  | nil => exact (Option.or_none).symm
  | cons entry rest ih =>
    obtain ⟨key, x⟩ := entry
    refine (ih (d := if d.has key then d else d.insert key x)).trans ?_
    by_cases hk : k = key
    · subst hk
      rw [find?_cons_self]
      split
      · next hd =>
        obtain ⟨y, hy⟩ := has_iff.mp hd
        rw [hy, Option.some_or, Option.some_or]
      · next hd => rw [find?_insert_self, find?_of_not_has hd, Option.some_or, Option.none_or]
    · rw [find?_cons_ne hk]
      split
      · rfl
      · rw [find?_insert_ne hk]

/-! ## Other values under the same keys -/

def mapValues (f : α → β) (d : Dict α) : Dict β := List.map (fun entry => (entry.1, f entry.2)) d

section

variable {f : α → β}

@[simp] theorem find?_mapValues : (d.mapValues f).find? key = (d.find? key).map f := by
  induction d with
  | nil => rfl
  | cons entry rest ih =>
    obtain ⟨k, y⟩ := entry
    by_cases hk : key = k
    · subst hk
      rw [find?_cons_self]
      exact find?_cons_self
    · rw [find?_cons_ne hk, ← ih]
      exact find?_cons_ne hk

@[simp] theorem has_mapValues : (d.mapValues f).has key = d.has key := by
  simp [has]

theorem mapValues_insert : (d.insert key x).mapValues f = (d.mapValues f).insert key (f x) := by
  induction d with
  | nil => rfl
  | cons entry rest ih =>
    simp only [insert, mapValues, List.map_cons] at ih ⊢
    cases compare key entry.1 with
    | lt => rfl
    | eq => rfl
    | gt => simp [ih]

theorem mapValues_mergeNew :
    (d.mergeNew e).mapValues f = (d.mapValues f).mergeNew (e.mapValues f) := by
  induction e generalizing d with
  | nil => rfl
  | cons entry rest ih =>
    have hstep : (if d.has entry.1 then d else d.insert entry.1 entry.2).mapValues f =
        if (d.mapValues f).has entry.1 then d.mapValues f
        else (d.mapValues f).insert entry.1 (f entry.2) := by
      rw [has_mapValues]
      split
      · rfl
      · exact mapValues_insert
    exact ih.trans (by rw [hstep]; rfl)

end

end Stencil.Dict

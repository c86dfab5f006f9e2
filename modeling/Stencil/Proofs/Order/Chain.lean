/-!
# Comparisons that fit together

Three items are compared pairwise. `Chain` says what the first two results leave of the third, for a
comparison that is transitive.
-/

namespace Stencil

/-- The results of comparing `a` to `b`, `b` to `c` and `a` to `c`. -/
structure Chain (ab bc ac : Ordering) : Prop where
  left : ab = .eq → ac = bc
  right : bc = .eq → ac = ab
  same : ab = bc → ac = ab

namespace Chain

instance (ab bc ac : Ordering) : Decidable (Chain ab bc ac) :=
  decidable_of_iff ((ab = .eq → ac = bc) ∧ (bc = .eq → ac = ab) ∧ (ab = bc → ac = ab))
    ⟨fun h => ⟨h.1, h.2.1, h.2.2⟩, fun h => ⟨h.left, h.right, h.same⟩⟩

variable {ab bc ac ab' bc' ac' : Ordering}

theorem of_trans [Ord α] [Std.TransOrd α] (a b c : α) :
    Chain (compare a b) (compare b c) (compare a c) where
  left h := Std.TransCmp.congr_left h
  right h := (Std.TransCmp.congr_right h).symm
  same h := by
    cases hab : compare a b with
    | lt => exact Std.TransCmp.lt_trans hab (h ▸ hab)
    | eq => exact Std.TransCmp.eq_trans hab (h ▸ hab)
    | gt => exact Std.TransCmp.gt_trans hab (h ▸ hab)

theorem of_right (h : bc ≠ .eq) : Chain ab bc bc where
  left _ := rfl
  right hbc := absurd hbc h
  same hbc := hbc.symm

theorem of_left (h : ab ≠ .eq) : Chain ab bc ab where
  left hab := absurd hab h
  right _ := rfl
  same _ := rfl

theorem of_opposite (hab : ab ≠ .eq) (hbc : bc ≠ .eq) (h : ab ≠ bc) : Chain ab bc ac where
  left hab' := absurd hab' hab
  right hbc' := absurd hbc' hbc
  same hab' := absurd hab' h

theorem of_end {order : List α → List α → Ordering} (hnil : order [] [] = .eq)
    (hlt : ∀ y ys, order [] (y :: ys) = .lt) (hgt : ∀ x xs, order (x :: xs) [] = .gt)
    {xs ys zs : List α} (h : xs = [] ∨ ys = [] ∨ zs = []) :
    Chain (order xs ys) (order ys zs) (order xs zs) := by
  cases xs with
  | nil =>
    cases ys with
    | nil =>
      rw [hnil]
      exact ⟨fun _ => rfl, id, Eq.symm⟩
    | cons y ys =>
      cases zs with
      | nil =>
        rw [hlt, hgt, hnil]
        decide
      | cons z zs =>
        rw [hlt, hlt]
        exact of_left nofun
  | cons x xs =>
    cases ys with
    | nil =>
      cases zs with
      | nil =>
        rw [hgt, hnil]
        decide
      | cons z zs =>
        rw [hgt, hlt]
        exact of_opposite nofun nofun nofun
    | cons y ys =>
      cases zs with
      | nil =>
        rw [hgt, hgt]
        exact of_right nofun
      | cons z zs => simp at h

theorem then_of_ne {o : Ordering} (h : o ≠ .eq) (o' : Ordering) : o.then o' = o := by
  cases o with
  | eq => exact absurd rfl h
  | lt => rfl
  | gt => rfl

theorem lex (h : Chain ab bc ac) (h' : ab = .eq → bc = .eq → Chain ab' bc' ac') :
    Chain (ab.then ab') (bc.then bc') (ac.then ac') := by
  by_cases hab : ab = .eq
  · have hac := h.left hab
    by_cases hbc : bc = .eq
    · rw [hac, hab, hbc]
      exact h' hab hbc
    · rw [hac, then_of_ne hbc, then_of_ne hbc]
      exact of_right hbc
  · rw [then_of_ne hab]
    by_cases hbc : bc = .eq
    · rw [h.right hbc, then_of_ne hab]
      exact of_left hab
    · rw [then_of_ne hbc]
      by_cases hsame : ab = bc
      · rw [h.same hsame, then_of_ne hab]
        exact of_left hab
      · exact of_opposite hab hbc hsame

theorem ne_gt (h : Chain ab bc ac) (hab : ab ≠ .gt) (hbc : bc ≠ .gt) : ac ≠ .gt := by
  cases ab with
  | eq => rwa [h.left rfl]
  | gt => exact absurd rfl hab
  | lt =>
    cases bc with
    | eq => rwa [h.right rfl]
    | gt => exact absurd rfl hbc
    | lt => rwa [h.same rfl]

end Chain

end Stencil

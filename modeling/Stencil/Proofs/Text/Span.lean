import Stencil.Text.Span
/-!
# Spans that cover text

A span covers some text if the text stands in the source where the span says. It then begins and ends
between characters, and is what `slice?` gives.
-/

namespace Stencil

/-! ## Bytes -/

@[simp] theorem byteSize_nil : byteSize [] = 0 := rfl
@[simp] theorem byteSize_cons (c : Char) (cs : List Char) :
    byteSize (c :: cs) = c.utf8Size + byteSize cs := rfl

@[simp] theorem byteSize_append (a b : List Char) :
    byteSize (a ++ b) = byteSize a + byteSize b := by
  induction a with
  | nil => simp
  | cons c a ih => simp [ih, Nat.add_assoc]

theorem cut?_append (before after : List Char) :
    cut? (before ++ after) (byteSize before) = some (before, after) := by
  induction before with
  | nil =>
    rw [List.nil_append, byteSize_nil]
    unfold cut?
    rfl
  | cons c before ih =>
    have hc : 0 < c.utf8Size := c.utf8Size_pos
    obtain ⟨n, hn⟩ := Nat.exists_eq_succ_of_ne_zero (Nat.ne_of_gt (Nat.add_pos_left hc (byteSize before)))
    have hle : c.utf8Size ≤ n + 1 := by omega
    have hsub : n + 1 - c.utf8Size = byteSize before := by omega
    rw [List.cons_append, byteSize_cons, hn, cut?, if_pos hle, hsub, ih]
    rfl

theorem prefix_of_byteSize_le {a b c d : List Char} (h : a ++ b = c ++ d)
    (hle : byteSize a ≤ byteSize c) : ∃ t, c = a ++ t ∧ b = t ++ d := by
  rcases List.append_eq_append_iff.mp h with ⟨t, hc, hb⟩ | ⟨t, ha, hd⟩
  · exact ⟨t, hc, hb⟩
  · -- Then `a` is at least as long as `c`, so nothing lies between them.
    have ht : t = [] := by
      cases t with
      | nil => rfl
      | cons x t =>
        have hx := x.utf8Size_pos
        rw [ha, byteSize_append, byteSize_cons] at hle
        omega
    subst ht
    exact ⟨[], by simpa using ha.symm, by simpa using hd.symm⟩

/-! ## Covered text -/

namespace Span

/-- The text stands in the source where the span says. -/
def Covers (s : Span) (source text : List Char) : Prop :=
  ∃ before after, source = before ++ (text ++ after) ∧
    s = ⟨byteSize before, byteSize before + byteSize text⟩

def Inside (s : Span) (source : List Char) : Prop := ∃ text, s.Covers source text

variable {s t : Span} {source text : List Char}

theorem Covers.slice (h : s.Covers source text) : slice? source s = some text := by
  obtain ⟨before, after, rfl, rfl⟩ := h
  have hle : ¬ byteSize before + byteSize text < byteSize before := by omega
  simp [slice?, hle, cut?_append]

theorem Covers.inside (h : s.Covers source text) : s.Inside source := ⟨text, h⟩

theorem Inside.slice (h : s.Inside source) : (slice? source s).isSome := by
  obtain ⟨text, h⟩ := h
  rw [h.slice]
  rfl

theorem inside_of_cuts {a b c d : List Char} (hab : source = a ++ b) (hcd : source = c ++ d)
    (hle : byteSize a ≤ byteSize c) : Inside ⟨byteSize a, byteSize c⟩ source := by
  obtain ⟨t, rfl, rfl⟩ := prefix_of_byteSize_le (hab.symm.trans hcd) hle
  exact ⟨t, a, d, hab, by rw [byteSize_append]⟩

theorem Inside.join (hs : s.Inside source) (ht : t.Inside source) : (s.join t).Inside source := by
  obtain ⟨text, a, b, hs, rfl⟩ := hs
  obtain ⟨text', a', b', ht, rfl⟩ := ht
  have hs' : source = (a ++ text) ++ b := by rw [hs, List.append_assoc]
  have ht' : source = (a' ++ text') ++ b' := by rw [ht, List.append_assoc]
  have hleft : ∃ c d, source = c ++ d ∧ byteSize c = min (byteSize a) (byteSize a') := by
    rcases Nat.le_total (byteSize a) (byteSize a') with h | h
    · exact ⟨_, _, hs, (Nat.min_eq_left h).symm⟩
    · exact ⟨_, _, ht, (Nat.min_eq_right h).symm⟩
  have hright : ∃ c d, source = c ++ d ∧
      byteSize c = max (byteSize a + byteSize text) (byteSize a' + byteSize text') := by
    rcases Nat.le_total (byteSize a + byteSize text) (byteSize a' + byteSize text') with h | h
    · exact ⟨_, _, ht', by rw [Nat.max_eq_right h, byteSize_append]⟩
    · exact ⟨_, _, hs', by rw [Nat.max_eq_left h, byteSize_append]⟩
  obtain ⟨c, d, hcd, hc⟩ := hleft
  obtain ⟨c', d', hcd', hc'⟩ := hright
  unfold Span.join
  rw [← hc, ← hc']
  exact inside_of_cuts hcd hcd' (by omega)

theorem inside_stop (source : List Char) : (point (byteSize source)).Inside source :=
  ⟨[], source, [], by simp, rfl⟩

end Span

end Stencil

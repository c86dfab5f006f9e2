import Stencil.Markup
import Stencil.Proofs.Text.Span
/-!
# The order of openers

Openers are tried from the longest one down. Of those that are equally long the one of an expression
comes first, then that of a block, of a comment and of a line.
-/

namespace Stencil

def TagKind.rank : TagKind → Nat
  | .expr => 0
  | .block => 1
  | .comment => 2
  | .line => 3

namespace Opener

variable {o p : Opener} {os : List Opener}

def Before (o p : Opener) : Prop :=
  byteSize p.mark < byteSize o.mark ∨
    (byteSize p.mark = byteSize o.mark ∧ o.kind.rank < p.kind.rank)

theorem Before.asymm (h : o.Before p) : ¬ p.Before o := by
  unfold Before at *
  omega

theorem insert_perm (o : Opener) (os : List Opener) : (o.insert os).Perm (o :: os) := by
  induction os with
  | nil => exact .refl _
  | cons p rest ih =>
    rw [insert]
    split
    · exact .refl _
    · exact (ih.cons p).trans (.swap o p rest)

theorem foldr_insert_perm (os : List Opener) : (os.foldr insert []).Perm os := by
  induction os with
  | nil => exact .refl _
  | cons o os ih => exact (insert_perm o _).trans (ih.cons o)

theorem insert_pairwise (h : os.Pairwise Before) (ho : ∀ p ∈ os, o.kind.rank < p.kind.rank) :
    (o.insert os).Pairwise Before := by
  induction os with
  | nil => exact List.pairwise_singleton _ _
  | cons p rest ih =>
    obtain ⟨hp, hrest⟩ := List.pairwise_cons.mp h
    rw [List.forall_mem_cons] at ho
    rw [insert]
    split
    · refine List.pairwise_cons.mpr ⟨?_, h⟩
      intro q hq
      rcases List.mem_cons.mp hq with rfl | hq
      · unfold Before
        omega
      · have hpq := hp q hq
        have hoq := ho.2 q hq
        unfold Before at *
        omega
    · refine List.pairwise_cons.mpr ⟨?_, ih hrest ho.2⟩
      intro q hq
      rcases List.mem_cons.mp ((insert_perm o rest).mem_iff.mp hq) with rfl | hq
      · unfold Before
        omega
      · exact hp q hq

theorem foldr_insert_pairwise (h : os.Pairwise fun o p => o.kind.rank < p.kind.rank) :
    (os.foldr insert []).Pairwise Before := by
  induction os with
  | nil => exact .nil
  | cons o os ih =>
    obtain ⟨ho, hos⟩ := List.pairwise_cons.mp h
    apply insert_pairwise (ih hos)
    intro p hp
    exact ho p ((foldr_insert_perm os).mem_iff.mp hp)

end Opener

namespace Markup

variable {m : Markup} {o : Opener}

def opener? (m : Markup) : TagKind → Option Opener
  | .expr => m.expr.map (.ofPair .expr)
  | .block => m.block.map (.ofPair .block)
  | .comment => m.comment.map (.ofPair .comment)
  | .line => m.line.map .ofLine

def kinds : List TagKind := [.expr, .block, .comment, .line]

theorem openers_eq (m : Markup) :
    m.openers = (kinds.filterMap m.opener?).foldr Opener.insert [] := by
  have hone : ∀ kind, [kind].filterMap m.opener? = (m.opener? kind).toList := by
    intro kind
    cases h : m.opener? kind <;> simp [h]
  have hkinds : kinds.filterMap m.opener? = (m.opener? .expr).toList ++ (m.opener? .block).toList ++
      (m.opener? .comment).toList ++ (m.opener? .line).toList := by
    simp only [← hone, ← List.filterMap_append]
    rfl
  rw [hkinds]
  rfl

theorem kind_of_opener? {kind : TagKind} (h : m.opener? kind = some o) : o.kind = kind := by
  cases kind <;>
  · obtain ⟨mark, -, rfl⟩ := Option.map_eq_some_iff.mp h
    rfl

theorem mem_openers : o ∈ m.openers ↔ m.opener? o.kind = some o := by
  rw [openers_eq, (Opener.foldr_insert_perm _).mem_iff, List.mem_filterMap]
  constructor
  · rintro ⟨kind, -, h⟩
    rwa [kind_of_opener? h]
  · intro h
    refine ⟨o.kind, ?_, h⟩
    cases o.kind <;> decide

theorem openers_pairwise (m : Markup) : m.openers.Pairwise Opener.Before := by
  rw [openers_eq]
  apply Opener.foldr_insert_pairwise
  rw [List.pairwise_filterMap]
  have hkinds : kinds.Pairwise fun k l => k.rank < l.rank := by decide
  apply hkinds.imp
  intro k l hkl o ho p hp
  rwa [kind_of_opener? ho, kind_of_opener? hp]

theorem mark_ne_nil (h : m.opener? o.kind = some o) : o.mark ≠ [] := by
  generalize o.kind = kind at h
  cases kind <;>
  · obtain ⟨mark, -, rfl⟩ := Option.map_eq_some_iff.mp h
    exact mt String.toList_eq_nil_iff.mp mark.opening_ne

end Markup

end Stencil

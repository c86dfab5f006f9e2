import Stencil.Body
import Stencil.Proofs.Text.Span
/-!
# Trees that stand in a source

A tree is placed in a source if its texts and names stand where it says, and all its spans lie in the
source.
-/

namespace Stencil

variable (source : List Char)

def Word.Placed (w : Word) : Prop := w.span.Covers source w.text.toList

mutual

def Expr.Placed : Expr → Prop
  | .literal _ span => span.Inside source
  | .name word => word.Placed source
  | .apply _ args span => Expr.AllPlaced args ∧ span.Inside source
  | .defined arg span => arg.Placed ∧ span.Inside source
  | .fallback first second span => first.Placed ∧ second.Placed ∧ span.Inside source
  | .call callee args span => callee.Placed source ∧ Expr.AllPlaced args ∧ span.Inside source
  | .both left right span => left.Placed ∧ right.Placed ∧ span.Inside source
  | .either left right span => left.Placed ∧ right.Placed ∧ span.Inside source

def Expr.AllPlaced : List Expr → Prop
  | [] => True
  | e :: rest => e.Placed ∧ Expr.AllPlaced rest

end

structure Part.Placed (p : Part) : Prop where
  expr : p.expr.Placed source
  span : p.span.Inside source

def Binder.Placed : Binder Word → Prop
  | .item name => name.Placed source
  | .pair key value => key.Placed source ∧ value.Placed source

def Tag.Placed : Tag → Prop
  | .text s span => span.Covers source s.toList
  | .output e span => e.Placed source ∧ span.Inside source
  | .cond test => test.Placed source
  | .otherwise span => span.Inside source
  | .otherwiseIf span test => span.Inside source ∧ test.Placed source
  | .endIf => True
  | .loop binder part => binder.Placed source ∧ part.Placed source
  | .endFor span => span.Inside source
  | .inclusion _ name span => name.Inside source ∧ span.Inside source
  | .set _ e span => e.Placed source ∧ span.Inside source

namespace Body

def Placed : Body → Prop
  | .done => True
  | .text s span rest => span.Covers source s.toList ∧ rest.Placed
  | .output e span rest => e.Placed source ∧ span.Inside source ∧ rest.Placed
  | .cond test yes rest => test.Placed source ∧ yes.Placed ∧ rest.Placed
  | .choice test yes span no rest =>
    test.Placed source ∧ yes.Placed ∧ span.Inside source ∧ no.Placed ∧ rest.Placed
  | .loop binder part body span rest =>
    binder.Placed source ∧ part.Placed source ∧ body.Placed ∧ span.Inside source ∧ rest.Placed
  | .inclusion _ span rest => span.Inside source ∧ rest.Placed
  | .set _ e span rest => e.Placed source ∧ span.Inside source ∧ rest.Placed

/-! ## From tags to bodies -/

def Edge.Placed : Edge → Prop
  | .otherwise span no => span.Inside source ∧ no.Placed source
  | .endFor span => span.Inside source
  | _ => True

structure Section.Placed (s : Section) : Prop where
  body : s.body.Placed source
  edge : s.edge.Placed source

variable {source}

theorem conditional_placed {test : Part} {yes rest : Body} {edge : Edge}
    (htest : test.Placed source) (hyes : yes.Placed source) (hedge : edge.Placed source)
    (hrest : rest.Placed source) : (conditional test yes edge rest).Placed source := by
  cases edge with
  | otherwise span no => exact ⟨htest, hyes, hedge.1, hedge.2, hrest⟩
  | _ => exact ⟨htest, hyes, hrest⟩

theorem addTag_placed {t : Tag} {sections : List Section} (ht : t.Placed source)
    (hs : ∀ s ∈ sections, s.Placed source) : ∀ s ∈ addTag t sections, s.Placed source := by
  unfold addTag
  split
  · rw [List.forall_mem_cons] at hs ⊢
    exact ⟨⟨⟨ht, hs.1.body⟩, hs.1.edge⟩, hs.2⟩
  · rw [List.forall_mem_cons] at hs ⊢
    exact ⟨⟨⟨ht.1, ht.2, hs.1.body⟩, hs.1.edge⟩, hs.2⟩
  · rw [List.forall_mem_cons] at hs ⊢
    exact ⟨⟨⟨ht.2, hs.1.body⟩, hs.1.edge⟩, hs.2⟩
  · rw [List.forall_mem_cons] at hs ⊢
    exact ⟨⟨⟨ht.1, ht.2, hs.1.body⟩, hs.1.edge⟩, hs.2⟩
  · rw [List.forall_mem_cons]
    exact ⟨⟨trivial, trivial⟩, hs⟩
  · rw [List.forall_mem_cons]
    exact ⟨⟨trivial, ht⟩, hs⟩
  · rw [List.forall_mem_cons] at hs ⊢
    exact ⟨⟨trivial, ht, hs.1.body⟩, hs.2⟩
  · rw [List.forall_mem_cons] at hs ⊢
    exact ⟨⟨trivial, ht.1, conditional_placed ht.2 hs.1.body hs.1.edge trivial⟩, hs.2⟩
  · rw [List.forall_mem_cons, List.forall_mem_cons] at hs
    rw [List.forall_mem_cons]
    exact ⟨⟨conditional_placed ht hs.1.body hs.1.edge hs.2.1.body, hs.2.1.edge⟩, hs.2.2⟩
  · rw [List.forall_mem_cons, List.forall_mem_cons] at hs
    rw [List.forall_mem_cons]
    exact ⟨⟨⟨ht.1, ht.2, hs.1.body, hs.1.edge, hs.2.1.body⟩, hs.2.1.edge⟩, hs.2.2⟩
  · exact hs

theorem ofTags_placed {ts : List Tag} (h : ∀ t ∈ ts, t.Placed source) :
    (ofTags ts).Placed source := by
  have hsections : ∀ s ∈ ts.foldr addTag [⟨.done, .ending⟩], s.Placed source := by
    induction ts with
    | nil =>
      intro s hs
      rw [List.mem_singleton.mp hs]
      exact ⟨trivial, trivial⟩
    | cons t ts ih =>
      rw [List.forall_mem_cons] at h
      exact addTag_placed h.1 (ih h.2)
  unfold ofTags
  split
  · next s rest hs => exact (hsections s (hs ▸ List.mem_cons_self)).body
  · trivial

end Body

end Stencil

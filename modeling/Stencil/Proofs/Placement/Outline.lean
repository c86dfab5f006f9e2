import Stencil.Proofs.Placement.Grammar
/-!
# The outline of a source

The tags that a source is read as stand in it, each where the blocks that are open allow it. If nothing
is wrong with them all blocks are closed at the end.
-/

namespace Stencil

namespace Grammar

variable {g : Grammar} {ts : List Token} {opened : List Open}

/-! ## Statements -/

theorem binder_reads (hg : g.Fits) (h : g.AllPlaced ts) :
    g.Reads (·.Placed g.source) (g.binder ts) := by
  refine (expect_reads hg h _).bind ?_
  rintro ⟨first, ts⟩ ⟨hfirst, hts⟩
  dsimp only
  split
  · refine (expect_reads hg hts.tail _).bind ?_
    rintro ⟨second, ts⟩ ⟨hsecond, hts⟩
    exact ⟨⟨hfirst, hsecond⟩, hts⟩
  · exact ⟨hfirst, hts⟩

theorem stringLiteral_reads (hg : g.Fits) (h : g.AllPlaced ts) :
    g.Reads (fun (_, span) => span.Inside g.source) (g.stringLiteral ts) := by
  refine (expect_reads hg h _).bind ?_
  rintro ⟨t, ts⟩ ⟨ht, hts⟩
  dsimp only
  split
  · exact ⟨ht.inside, hts⟩
  · exact ht.inside

/-- A tag in its place: it stands in the source, and can follow where some blocks are open. -/
def Fitting (g : Grammar) (opened : List Open) (p : Tag × List Open) : Prop :=
  p.1.Placed g.source ∧ Opened.step? opened p.1 = some p.2

theorem ending_reads {t : Tag} (ht : t.Placed g.source) (closer : Closer)
    (hstep : Opened.step? opened t = Opened.close? opened closer) {span : Span}
    (hspan : span.Inside g.source) (h : g.AllPlaced ts) :
    g.Reads (g.Fitting opened) (ending closer t span opened ts) := by
  unfold ending
  split
  · next opened' hclose => exact ⟨⟨ht, hstep.trans hclose⟩, h⟩
  · exact hspan

theorem elseStatement_reads (hg : g.Fits) {span : Span} (hspan : span.Inside g.source)
    (h : g.AllPlaced ts) : g.Reads (g.Fitting opened) (g.elseStatement span opened ts) := by
  unfold elseStatement
  split
  · split
    · next opened' hclose =>
      refine (expr_reads hg h.tail).bind ?_
      rintro ⟨test, ts⟩ ⟨htest, hts⟩
      exact ⟨⟨⟨hspan, htest⟩, hclose⟩, hts⟩
    · exact hspan
  · exact ending_reads (t := .otherwise span) hspan .otherwise rfl hspan h

theorem keywordStatement_reads (hg : g.Fits) {t : Token} (ht : t.Placed g.source)
    (h : g.AllPlaced ts) (word : Keyword) :
    g.Reads (g.Fitting opened) (g.keywordStatement word t opened ts) := by
  unfold keywordStatement
  split
  · refine (expr_reads hg h).bind ?_
    rintro ⟨test, ts⟩ ⟨htest, hts⟩
    exact ⟨⟨htest, rfl⟩, hts⟩
  · exact elseStatement_reads hg ht.inside h
  · exact ending_reads (t := .endIf) trivial .endIf rfl ht.inside h
  · refine (binder_reads hg h).bind ?_
    rintro ⟨binder, ts⟩ ⟨hbinder, hts⟩
    refine (expectKeyword_reads hg hts _).bind ?_
    rintro ⟨_, ts⟩ ⟨_, hts⟩
    refine (expr_reads hg hts).bind ?_
    rintro ⟨part, ts⟩ ⟨hpart, hts⟩
    exact ⟨⟨⟨hbinder, hpart⟩, rfl⟩, hts⟩
  · exact ending_reads (t := .endFor t.span) ht.inside .endFor rfl ht.inside h
  · refine (stringLiteral_reads hg h).bind ?_
    rintro ⟨⟨name, span⟩, ts⟩ ⟨hspan, hts⟩
    exact ⟨⟨⟨hspan, ht.inside.join hspan⟩, rfl⟩, hts⟩
  · refine (expect_reads hg h _).bind ?_
    rintro ⟨name, ts⟩ ⟨hname, hts⟩
    refine (expect_reads hg hts _).bind ?_
    rintro ⟨_, ts⟩ ⟨_, hts⟩
    refine (expr_reads hg hts).bind ?_
    rintro ⟨value, ts⟩ ⟨hvalue, hts⟩
    exact ⟨⟨⟨hvalue.expr, hname.inside.join hvalue.span⟩, rfl⟩, hts⟩
  · exact ht.inside

theorem statement_reads (hg : g.Fits) (h : g.AllPlaced ts) :
    g.Reads (g.Fitting opened) (g.statement opened ts) := by
  have ht := h.head hg
  unfold statement
  dsimp only
  split
  · split
    · exact keywordStatement_reads hg ht h.tail _
    · exact ht.inside
  · exact reject_reads hg h _ _

/-! ## Tags -/

structure FittingPiece (g : Grammar) (opened : List Open) (p : Piece) : Prop where
  tag : ∀ t, p.tag = some t → g.Fitting opened (t, p.opened)
  none : p.tag = none → p.opened = opened
  after : Gives g.source g.AllPlaced p.after

theorem tagEnd_gives (hg : g.Fits) (h : g.AllPlaced ts) (kind : TagKind) :
    Gives g.source g.AllPlaced (g.tagEnd kind ts) := by
  unfold tagEnd
  dsimp only
  split
  · exact h.tail
  · exact (h.head hg).inside

theorem statementPiece_gives (hg : g.Fits) (h : g.AllPlaced ts) (kind : TagKind) :
    Gives g.source (g.FittingPiece opened) (g.statementPiece kind opened ts) := by
  refine (statement_reads hg h).bind ?_
  rintro ⟨⟨tag, opened'⟩, ts⟩ ⟨htag, hts⟩
  refine ⟨?_, nofun, tagEnd_gives hg hts kind⟩
  rintro t ⟨⟩
  exact htag

theorem piece_gives (hg : g.Fits) (opened : List Open) {t : Token} (ht : t.Placed g.source) (h : g.AllPlaced ts) :
    Gives g.source (g.FittingPiece opened) (g.piece opened t ts) := by
  unfold piece
  split
  · refine ⟨?_, nofun, h⟩
    rintro t' ⟨⟩
    exact ⟨ht, rfl⟩
  · exact ⟨nofun, fun _ => rfl, tagEnd_gives hg h _⟩
  · refine (expr_reads hg h).bind ?_
    rintro ⟨e, ts⟩ ⟨he, hts⟩
    refine (expect_reads hg hts _).bind ?_
    rintro ⟨stop, ts⟩ ⟨hstop, hts⟩
    refine ⟨?_, nofun, hts⟩
    rintro t' ⟨⟩
    exact ⟨⟨he.expr, ht.inside.join hstop.inside⟩, rfl⟩
  · exact statementPiece_gives hg h _
  · exact ht.inside

end Grammar

/-- The tags and the fault of a source in their places. -/
structure Outline.Sound (source : List Char) (opened : List Open) (o : Outline) : Prop where
  tags : ∀ t ∈ o.tags, t.Placed source
  fault : ∀ r, o.fault = some r → r.span.Inside source
  closed : o.fault = none → Opened.run? opened o.tags = some []

namespace Grammar

variable {g : Grammar} {ts : List Token} {opened : List Open}

theorem finish_sound (hg : g.Fits) (opened : List Open) :
    (g.finish opened).Sound g.source opened := by
  refine ⟨nofun, ?_, ?_⟩
  · intro r hr
    obtain ⟨o, _, rfl⟩ := Option.map_eq_some_iff.mp hr
    show (Span.point g.stop).Inside g.source
    rw [hg]
    exact Span.inside_stop g.source
  · intro h
    cases opened with
    | nil => rfl
    | cons o rest => cases h

theorem cons_sound {p : Piece} (hp : g.FittingPiece opened p) {o : Outline}
    (ho : o.Sound g.source p.opened) : (Outline.cons p.tag o).Sound g.source opened := by
  cases ht : p.tag with
  | none =>
    rw [hp.none ht] at ho
    exact ho
  | some t =>
    obtain ⟨hplaced, hstep⟩ := hp.tag t ht
    refine ⟨?_, ho.fault, ?_⟩
    · intro u hu
      rcases List.mem_cons.mp hu with rfl | hu
      · exact hplaced
      · exact ho.tags u hu
    · intro h
      exact Option.bind_eq_some_iff.mpr ⟨_, hstep, ho.closed h⟩

theorem outlineFrom_sound (hg : g.Fits) (n : Nat) (h : g.AllPlaced ts) :
    (g.outlineFrom n opened ts).Sound g.source opened := by
  induction n generalizing opened ts with
  | zero =>
    cases ts with
    | nil => exact finish_sound hg opened
    | cons t ts => exact finish_sound hg opened
  | succ n ih =>
    cases ts with
    | nil => exact finish_sound hg opened
    | cons t ts =>
      have hpiece := piece_gives hg opened (h t List.mem_cons_self) h.tail
      rw [outlineFrom]
      rw [List.tail_cons] at hpiece
      cases hp : g.piece opened t ts with
      | error r =>
        rw [hp] at hpiece
        refine ⟨nofun, ?_, nofun⟩
        rintro r' ⟨⟩
        exact hpiece
      | ok p =>
        rw [hp] at hpiece
        have htag : ∀ u ∈ p.tag.toList, u.Placed g.source :=
          fun u hu => (FittingPiece.tag hpiece u (Option.mem_toList.mp hu)).1
        have hafter := FittingPiece.after hpiece
        cases ha : p.after with
        | error r =>
          rw [ha] at hafter
          simp only [ha]
          refine ⟨htag, ?_, nofun⟩
          rintro r' ⟨⟩
          exact hafter
        | ok rest =>
          rw [ha] at hafter
          simp only [ha]
          exact cons_sound hpiece (ih hafter)

theorem outline_sound (hg : g.Fits) (h : g.AllPlaced ts) :
    (g.outline ts).Sound g.source [] := outlineFrom_sound hg _ h

end Grammar

end Stencil

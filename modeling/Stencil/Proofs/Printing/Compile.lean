import Stencil.Proofs.Compiling.Tags
import Stencil.Proofs.Including.Gathers
import Stencil.Proofs.Printing.Code
import Stencil.Proofs.Printing.Read
import Stencil.Proofs.Printing.Scan
/-!
# Compiling written expressions

A term compiles exactly if each of its calls fits, in whatever style it is written. Its instructions, with
the texts that they name instead of places, are the same in every style.
-/

namespace Stencil

namespace Grammar

theorem outline_symbols (g : Grammar) {s : Style} {t : Term} {u v : Token} {us : List Token}
    (hu : u.kind = .opening .expr) (hus : us.map Token.symbol = t.symbols s .either)
    (hv : v.kind = .closing .expr) :
    (∃ p : Part, t.tree? g.functions = some p.tree ∧
      g.outline (u :: (us ++ [v])) = ⟨[.output p.expr (u.span.join v.span)], none⟩) ∨
    (t.tree? g.functions = none ∧ ∃ r, g.outline (u :: (us ++ [v])) = ⟨[], some r⟩) := by
  have hread : Meets Part.tree (t.tree? g.functions) [v] (g.expr (us ++ [v])) :=
    g.expr_symbols s t hus (stops_of_kind (.inr (.inr ⟨_, hv⟩)))
  unfold outline
  rw [List.length_cons, outlineFrom, piece]
  simp only [hu]
  rcases hread with ⟨p, hp, hread⟩ | ⟨hnone, r, hread⟩
  · refine .inl ⟨p, hp, ?_⟩
    simp only [hread, except_ok_bind, expect_kind hv]
    cases us <;> rfl
  · exact .inr ⟨hnone, r, by rw [hread]; rfl⟩

end Grammar

namespace Engine

variable {e : Engine}

theorem compile_source (h : e.markup.openers = Markup.standard.openers) (s : Style) (t : Term) :
    (∃ p : Part, ∃ span template, t.tree? e.functions = some p.tree ∧
      (e.compile (t.source s)).result = .ok template ∧ template.page.source = t.source s ∧
      p.expr.Placed (t.source s).toList ∧
      template.page.code.toList = (Body.output p.expr span .done).code e.folding 0) ∨
    (t.tree? e.functions = none ∧ ∃ err, (e.compile (t.source s)).result = .error err) := by
  obtain ⟨u, us, v, hscan, hu, hus, hv⟩ := Token.scan_source h s t
  obtain ⟨n, hfuel⟩ := e.fuel_eq
  have hread := (e.grammar (t.source s)).outline_symbols hu hus hv
  rw [← hscan] at hread
  rcases hread with ⟨p, hp, houtline⟩ | ⟨hnone, r, houtline⟩
  · have hsound := e.outline_sound (t.source s)
    rw [outline, houtline] at hsound
    have hplaced := (hsound.tags _ (List.mem_singleton_self _)).1
    have hcompile : (e.compile (t.source s)).result =
        .ok ⟨.of e.folding (t.source s) [.output p.expr (u.span.join v.span)], []⟩ := by
      rw [compile_iff hfuel, outline, houtline]
      exact ⟨rfl, _, .start none, rfl, .other nofun .nil⟩
    exact .inl ⟨p, u.span.join v.span, _, hp, hcompile, rfl, hplaced,
      congrArg Array.toList (Emitter.program_eq e.folding (hsound.closed rfl))⟩
  · refine .inr ⟨hnone, ?_⟩
    cases hresult : (e.compile (t.source s)).result with
    | error err => exact ⟨err, rfl⟩
    | ok template =>
      have hfault := ((compile_iff hfuel).mp hresult).1
      rw [outline, houtline] at hfault
      cases hfault

theorem compiles_iff_fits (h : e.markup.openers = Markup.standard.openers) (s : Style) (t : Term) :
    (∃ template, (e.compile (t.source s)).result = .ok template) ↔ t.Fits e.functions := by
  rw [← t.isSome_tree?]
  rcases compile_source h s t with ⟨p, span, template, hp, hcompile, -⟩ | ⟨hnone, err, herr⟩
  · simp [hp, hcompile]
  · simp [hnone, herr]

theorem code_of_styles (h : e.markup.openers = Markup.standard.openers) {s s' : Style} {t : Term}
    {template template' : Template} (ht : (e.compile (t.source s)).result = .ok template)
    (ht' : (e.compile (t.source s')).result = .ok template') :
    template.page.spelled = template'.page.spelled := by
  rcases compile_source h s t with ⟨p, span, _, hp, hcompile, hsource, hplaced, hcode⟩ | ⟨-, err, herr⟩
  · rcases compile_source h s' t with ⟨p', span', _, hp', hcompile', hsource', hplaced', hcode'⟩ |
      ⟨-, err, herr⟩
    · obtain rfl := Except.ok.inj (hcompile.symm.trans ht)
      obtain rfl := Except.ok.inj (hcompile'.symm.trans ht')
      have htree : p.expr.erase = p'.expr.erase := Option.some.inj (hp.symm.trans hp')
      rw [Page.spelled, Page.spelled, hsource, hsource', hcode, hcode']
      exact Body.output_spelled htree hplaced hplaced' e.folding 0 span span'
    · cases herr.symm.trans ht'
  · cases herr.symm.trans ht

/-- With parentheses where they have to be or around each part, a term compiles to the same instructions
up to their places if its calls fit. If they do not, it compiles in neither way. -/
theorem parentheses_neutral (h : e.markup.openers = Markup.standard.openers) (t : Term) :
    (t.Fits e.functions → ∃ template template',
      (e.compile (t.source .least)).result = .ok template ∧
      (e.compile (t.source .full)).result = .ok template' ∧
      template.page.spelled = template'.page.spelled) ∧
    (¬ t.Fits e.functions → ∃ err err',
      (e.compile (t.source .least)).result = .error err ∧
      (e.compile (t.source .full)).result = .error err') := by
  constructor
  · intro hfits
    obtain ⟨template, ht⟩ := (compiles_iff_fits h .least t).mpr hfits
    obtain ⟨template', ht'⟩ := (compiles_iff_fits h .full t).mpr hfits
    exact ⟨template, template', ht, ht', code_of_styles h ht ht'⟩
  · intro hfits
    cases hleast : (e.compile (t.source .least)).result with
    | ok template => exact absurd ((compiles_iff_fits h .least t).mp ⟨template, hleast⟩) hfits
    | error err =>
      cases hfull : (e.compile (t.source .full)).result with
      | ok template => exact absurd ((compiles_iff_fits h .full t).mp ⟨template, hfull⟩) hfits
      | error err' => exact ⟨err, err', rfl, rfl⟩

end Engine

def PlainWord.letter (c : Char) (hstart : Identifier.isStart c)
    (hkey : Keyword.ofText? (String.singleton c) = none) : PlainWord :=
  ⟨String.singleton c, ⟨c, [], by simp, hstart, List.forall_mem_nil _⟩, hkey⟩

def Term.weighed : Term :=
  .call ⟨"default", ⟨'d', "efault".toList, rfl, by decide, List.all_eq_true.mp rfl⟩, by decide⟩
    [.name (.letter 'a' (by decide) (by decide)),
      .binary (.arith .mul)
        (.binary (.arith .add) (.name (.letter 'b' (by decide) (by decide)))
          (.literal ⟨.number, "2", .number (.ofNat 2), .number (by decide) (by decide), by rfl⟩))
        (.negative (.name (.letter 'c' (by decide) (by decide))))]

example : Term.weighed.source .least = "\x7b\x7b default ( a , ( b + 2 ) * - c ) \x7d\x7d" := by rfl

example : Term.weighed.source .full =
    "\x7b\x7b ( default ( ( a ) , ( ( ( b ) + ( 2 ) ) * ( - ( c ) ) ) ) ) \x7d\x7d" := by rfl

theorem Engine.weighed_neutral : Term.weighed.Fits [] ∧ ∃ template template',
    (({ loader := none } : Engine).compile (Term.weighed.source .least)).result = .ok template ∧
    (({ loader := none } : Engine).compile (Term.weighed.source .full)).result = .ok template' ∧
    template.page.spelled = template'.page.spelled := by
  have hfits : Term.weighed.Fits [] :=
    ⟨⟨.fallback, by rfl⟩, trivial, ⟨⟨trivial, trivial⟩, trivial⟩, trivial⟩
  exact ⟨hfits, (parentheses_neutral rfl Term.weighed).1 hfits⟩

end Stencil

import Stencil.Proofs.Including.Closure
import Stencil.Proofs.Including.Source
import Stencil.Proofs.Meaning.Page
/-!
# Including a template and rendering it

A source that only includes a registered template gets its page and its pages. It is rendered as the
template itself, unless the template holds another page under its own name. It can do so when it was
registered again and includes a template that still holds the old one.
-/

namespace Stencil

namespace Template

/-- The template holds no other page under its own name. -/
def Current (t : Template) (name : String) : Prop :=
  ∀ p, t.includes.find? name = some p → p = t.page

end Template

namespace Engine

variable {e : Engine} {source name : String} {t u : Template}

/-! ## Rendering -/

theorem include_agree (hsound : t.Sound (some name)) (hcurrent : t.Current name)
    (hu : u.includes = t.included name) :
    (e.renderer none u).Agree (e.renderer (some name) t) t.Has := by
  refine ⟨rfl, rfl, rfl, fun p hp key hkey => ?_⟩
  obtain ⟨q, hq⟩ := (hsound.knows hp hkey).means
  refine ⟨q, hq.has, ?_, page?_of_means hq⟩
  have hfind : u.includes.find? key = some q := by
    rw [hu]
    by_cases hname : key = name
    · subst hname
      have hpage : q = t.page := hq.elim (hcurrent q) fun h => h.2.2
      rw [hpage]
      exact Template.find?_included_self
    · rw [Template.find?_included_ne hname]
      rcases hq with hq | ⟨-, hq, -⟩
      · exact hq
      · exact absurd (Option.some.inj hq).symm hname
  exact page?_of_means (.inl hfind)

theorem renderInto_include (he : e.Reached) (ht : e.templates.find? name = some t)
    (hu : e.Offers none u) (hcurrent : t.Current name) {folding : Bool}
    {place span : Span} (hpage : u.page = .of folding source [.inclusion name place span])
    (hincludes : u.includes = t.included name) (data : Value) (out : Output) :
    (e.renderInto none u data out).Same (· = ·) (fun err => err.fault = .includeDepth e.maxDepth)
      (· = ·) (e.renderInto (some name) t data out) := by
  have hagree := include_agree (e := e) (he.sound _ _ ht) hcurrent hincludes
  have hroot : (e.renderer none u).page? name = some t.page :=
    page?_of_means (.inl (hincludes ▸ Template.find?_included_self))
  rw [renderInto_meaning he.sound (he.sound_of_offers hu) data out,
    renderInto_meaning he.sound (he.sound_of_offers (.registered ht)) data out,
    Renderer.meaning, Renderer.meaning, hpage]
  have hlimit : (e.renderer none u).limit = e.maxDepth := rfl
  have hlimit' : (e.renderer (some name) t).limit = e.maxDepth := rfl
  rw [hlimit, hlimit']
  cases hdepth : e.maxDepth with
  | zero =>
    rw [Renderer.eval_inclusion_zero, hlimit, hdepth]
    exact .excused out _ rfl
  | succ depth =>
    rw [Renderer.eval_inclusion hroot]
    have hscope := Scope.empty_alike [] data
    refine Outcome.Same.orIn ?_ fun _ h => h
    refine hagree.eval_same Output.kept_eq (fun _ _ h => h) (.inr ⟨Nat.le_succ depth, ?_⟩) (.inl rfl)
      hscope rfl
    intro source span
    rw [hlimit, hdepth]
    rfl

/-- The anonymous template that only includes a registered one, by a name that is a normal path,
compiles. It is rendered to the same output or the same error as the registered template itself, unless
includes get nested too deep. The registered template must hold no other page under its own name. -/
theorem include_renders_directly (he : e.Reached) (hpath : Path.normal "" name = name)
    (ht : e.templates.find? name = some t) (hsource : e.Lists source [name])
    (hcurrent : t.Current name) : ∃ u, (e.compile source).result = .ok u ∧
      ∀ data, (∀ err, e.render none u data = .error (.raised err) → err.fault ≠ .includeDepth e.maxDepth) →
        e.render none u data = e.render (some name) t data := by
  obtain ⟨place, span, hcompile⟩ := compile_include hpath ht hsource
  refine ⟨_, hcompile, fun data hdepth => ?_⟩
  have hsame := renderInto_include he ht (offers_of_result hcompile) hcurrent rfl rfl data (.memory "")
  have hequal := hsame.eq fun err out hfailed => hdepth err (by rw [render, hfailed])
  rw [render, render, hequal]

theorem stacked_directly : Path.normal "" "b" = "b" ∧ ∃ u,
    (stacked.compile (includeSource ["b"])).result = .ok u ∧
      stacked.render none u .null =
        stacked.render (some "b") ⟨loopPage, [("a", digitPage "1")]⟩ .null := by
  have hpath : Path.normal "" "b" = "b" := by rfl
  have hfind : stacked.templates.find? "b" = some ⟨loopPage, [("a", digitPage "1")]⟩ := by rfl
  have hlists : stacked.Lists (includeSource ["b"]) ["b"] := lists_includes rfl (by decide)
  obtain ⟨u, hu, hrender⟩ :=
    include_renders_directly stacked_reached hpath hfind hlists (fun p hp => nomatch hp)
  refine ⟨hpath, u, hu, hrender .null fun err herr => ?_⟩
  obtain ⟨place, span, hcompile⟩ := compile_include hpath hfind hlists
  have hoffers := offers_of_result hcompile
  rw [hcompile] at hu
  cases hu
  rw [render_of_eval stacked_reached hoffers rfl] at herr
  cases herr

end Engine

/-! ## A template that was registered again -/

namespace Grammar

variable {g : Grammar} {t u : Token} {ts : List Token} {kind : TagKind}

theorem keyword?_closing (hu : u.kind = .closing kind) : keyword? u = none := by
  simp [keyword?, hu]

theorem chain_closing (hu : u.kind = .closing kind) {n : Nat} {level : Level} {ts' : List Token}
    {p : Part} (h : g.link (n + 1) level ts' = .ok (p, u :: ts)) :
    g.chain (n + 2) level ts' = .ok (p, u :: ts) := by
  have hoperator : level.operator? u = none := by
    cases level <;> simp [Level.operator?, keyword?_closing hu, hu]
  simp only [chain, h, except_ok_bind, chainRest, head, hoperator]

theorem expr_word (kind : TagKind) {e : Expr} (ht : t.kind = .word) (hnot : keyword? t ≠ some .notWord)
    (he : wordOperand t = .ok e) (hu : u.kind = .closing kind) :
    g.expr (t :: u :: ts) = .ok (⟨e, t.span⟩, u :: ts) := by
  obtain ⟨n, hn⟩ : ∃ n, fuel (t :: u :: ts) = n + 13 := ⟨16 * ts.length + 35, by
    simp only [fuel, List.length_cons]
    omega⟩
  have hoperand : g.operand (n + 1) (t :: u :: ts) = .ok (⟨e, t.span⟩, u :: ts) := by
    simp [operand, head, ht, hu, he]
  have hpower : g.power (n + 3) (t :: u :: ts) = .ok (⟨e, t.span⟩, u :: ts) := by
    simp [power, unary, head, ht, hoperand, hu]
  have hsum : g.chain (n + 7) .sum (t :: u :: ts) = .ok (⟨e, t.span⟩, u :: ts) :=
    chain_closing hu (chain_closing hu hpower)
  have hcomparison : comparison? u = none := by
    simp [comparison?, keyword?_closing hu, hu]
  have hnegation : g.negation (n + 9) (t :: u :: ts) = .ok (⟨e, t.span⟩, u :: ts) := by
    simp [negation, ahead, head, hnot, comparison, hsum, hcomparison]
  rw [expr, hn]
  exact chain_closing hu (chain_closing hu hnegation)

end Grammar

namespace Engine

/-- With a false "d" it includes "a" with a true one, and then never "b". With a true "d" it is the
text "2". -/
def againSource : String :=
  "\x7b% if d %\x7d2\x7b% else %\x7d\x7b% set d = true %\x7d\x7b% include \"a\" %\x7d" ++
    "\x7b% if false %\x7d\x7b% include \"b\" %\x7d\x7b% endif %\x7d\x7b% endif %\x7d"

def againTokens : List Token :=
  [⟨.opening .block, "\x7b%", ⟨0, 2⟩⟩, ⟨.word, "if", ⟨3, 5⟩⟩, ⟨.word, "d", ⟨6, 7⟩⟩,
    ⟨.closing .block, "%\x7d", ⟨8, 10⟩⟩, ⟨.text, "2", ⟨10, 11⟩⟩,
    ⟨.opening .block, "\x7b%", ⟨11, 13⟩⟩, ⟨.word, "else", ⟨14, 18⟩⟩,
    ⟨.closing .block, "%\x7d", ⟨19, 21⟩⟩,
    ⟨.opening .block, "\x7b%", ⟨21, 23⟩⟩, ⟨.word, "set", ⟨24, 27⟩⟩, ⟨.word, "d", ⟨28, 29⟩⟩,
    ⟨.assign, "=", ⟨30, 31⟩⟩, ⟨.word, "true", ⟨32, 36⟩⟩, ⟨.closing .block, "%\x7d", ⟨37, 39⟩⟩,
    ⟨.opening .block, "\x7b%", ⟨39, 41⟩⟩, ⟨.word, "include", ⟨42, 49⟩⟩, ⟨.string, "\"a\"", ⟨50, 53⟩⟩,
    ⟨.closing .block, "%\x7d", ⟨54, 56⟩⟩,
    ⟨.opening .block, "\x7b%", ⟨56, 58⟩⟩, ⟨.word, "if", ⟨59, 61⟩⟩, ⟨.word, "false", ⟨62, 67⟩⟩,
    ⟨.closing .block, "%\x7d", ⟨68, 70⟩⟩,
    ⟨.opening .block, "\x7b%", ⟨70, 72⟩⟩, ⟨.word, "include", ⟨73, 80⟩⟩, ⟨.string, "\"b\"", ⟨81, 84⟩⟩,
    ⟨.closing .block, "%\x7d", ⟨85, 87⟩⟩,
    ⟨.opening .block, "\x7b%", ⟨87, 89⟩⟩, ⟨.word, "endif", ⟨90, 95⟩⟩,
    ⟨.closing .block, "%\x7d", ⟨96, 98⟩⟩,
    ⟨.opening .block, "\x7b%", ⟨98, 100⟩⟩, ⟨.word, "endif", ⟨101, 106⟩⟩,
    ⟨.closing .block, "%\x7d", ⟨107, 109⟩⟩]

def againTags : List Tag :=
  [.cond ⟨.name ⟨"d", ⟨6, 7⟩⟩, ⟨6, 7⟩⟩, .text "2" ⟨10, 11⟩, .otherwise ⟨14, 18⟩,
    .set ["d"] (.literal (.bool true) ⟨32, 36⟩) ⟨28, 36⟩, .inclusion "a" ⟨50, 53⟩ ⟨42, 53⟩,
    .cond ⟨.literal (.bool false) ⟨62, 67⟩, ⟨62, 67⟩⟩, .inclusion "b" ⟨81, 84⟩ ⟨73, 84⟩, .endIf, .endIf]

theorem outline_again {g : Grammar} (hd : g.target "d" = ["d"]) :
    g.outline againTokens = ⟨againTags, none⟩ := by
  have hif : Keyword.ofText? "if" = some .ifWord := by decide
  have helse : Keyword.ofText? "else" = some .elseWord := by decide
  have hset : Keyword.ofText? "set" = some .setWord := by decide
  have htrue : Keyword.ofText? "true" = some .trueWord := by decide
  have hfalse : Keyword.ofText? "false" = some .falseWord := by decide
  have hinclude : Keyword.ofText? "include" = some .includeWord := by decide
  have hendif : Keyword.ofText? "endif" = some .endIf := by decide
  have hname : Keyword.ofText? "d" = none := by decide
  have hother : Json.read? "\"a\"" = some (.string "a") := by rfl
  have hstring : Json.read? "\"b\"" = some (.string "b") := by rfl
  simp [againTokens, againTags, Grammar.outline, Grammar.outlineFrom, Grammar.piece,
    Grammar.statementPiece, Grammar.statement, Grammar.head, Grammar.keyword?, hif, helse, hset, htrue,
    hfalse, hother, hinclude, hendif, hname, hd, Grammar.keywordStatement, Grammar.stringLiteral,
    Grammar.expect, hstring, Span.join, Grammar.tagEnd, Outline.cons, Grammar.finish, Grammar.elseStatement,
    Grammar.ending, Opened.close?, Grammar.ahead, Grammar.expr_word .block,
    Grammar.wordOperand, Token.word]

def againTemplate : Template :=
  ⟨.of true againSource againTags, [("a", digitPage "1"), ("b", loopPage)]⟩

def replaced : Engine where
  loader := none
  templates := [("a", againTemplate), ("b", ⟨loopPage, [("a", digitPage "1")]⟩)]

theorem replaced_reached : replaced.Reached := by
  have hscan : Token.scan .standard againSource = againTokens := by rfl
  have houtline : stacked.outline againSource = ⟨againTags, none⟩ := by
    have hmarkup : stacked.markup = .standard := rfl
    rw [outline, hmarkup, hscan, outline_again (by rfl)]
  have hself : Path.normal (Path.directory "a") "a" = "a" := by rfl
  have hpath : Path.normal (Path.directory "a") "b" = "b" := by rfl
  have hgathers : stacked.Gathers 0 (Path.directory "a") (stacked.outline againSource).tags
      (.start (some "a")) againTags
      ((Gathering.start (some "a")).addTemplate "b" ⟨loopPage, [("a", digitPage "1")]⟩) := by
    rw [houtline]
    refine .other (by simp) (.other (by simp) (.other (by simp) (.other (by simp) ?_)))
    refine .known hself (.inr List.mem_cons_self) (.other (by simp) ?_)
    exact .registered hpath (start_not_knows (by decide)) rfl
      (.other (by simp) (.other (by simp) .nil))
  exact .addTemplate stacked_reached (hgathers.compiles (by rw [houtline]))

/-- The template that was registered again includes its older version when it is rendered, but itself
when it is included. The older one comes with the pages of "b". -/
theorem replaced_differs : replaced.Reached ∧ Path.normal "" "a" = "a" ∧
    replaced.templates.find? "a" = some againTemplate ∧
    replaced.render (some "a") againTemplate (.object [("d", .bool false)]) = .ok "1" ∧
    replaced.Lists (includeSource ["a"]) ["a"] ∧
    ∃ u, (replaced.compile (includeSource ["a"])).result = .ok u ∧
      replaced.render none u (.object [("d", .bool false)]) = .ok "2" := by
  have hpath : Path.normal "" "a" = "a" := by rfl
  have hfind : replaced.templates.find? "a" = some againTemplate := by rfl
  have hlists : replaced.Lists (includeSource ["a"]) ["a"] := lists_includes rfl (by decide)
  obtain ⟨place, span, hcompile⟩ := compile_include hpath hfind hlists
  exact ⟨replaced_reached, hpath, hfind, render_of_eval replaced_reached (.registered hfind) rfl,
    hlists, _, hcompile, render_of_eval replaced_reached (offers_of_result hcompile) rfl⟩

end Engine

end Stencil

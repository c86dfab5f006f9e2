import Stencil.Proofs.Binding.Sources
import Stencil.Proofs.Including.Lists
import Stencil.Proofs.Literals.Binding
/-!
# Names that are read

A name that was bound to an expression is output as the expression itself would be, and in a loop as the
item of the round.
-/

namespace Stencil

open Machine

/-! ## Rendering sources without includes -/

def Outcome.ofText : Except (Halt Error) String → Outcome Output
  | .ok text => .done (.memory text)
  | .error halt => .failed halt (.memory "")

/-- What a source by itself is rendered with: no variables, only the data. -/
def Engine.context (e : Engine) (source : String) (data : Value) : Context :=
  ⟨source, e.functions, e.sorting, e.markup.paths, ⟨[], data⟩⟩

theorem Renderer.eval_page (r : Renderer) (depth : Nat) (p : Page) (around : Scope) (out : Output) :
    ∃ insert, r.eval depth p around out = p.body.evalAll (r.context p around) insert out := by
  cases depth <;> exact ⟨_, rfl⟩

namespace Engine

variable {e : Engine} {t : Template} {data : Value} {source : String} {tags : List Tag}

theorem render_plain (he : e.Reached)
    (hcompile : (e.compile source).result = .ok ⟨.of e.folding source tags, []⟩) 
    {result : Except (Halt Error) String} (h : ∀ insert,
      (Body.ofTags tags).evalAll (e.context source data) insert (.memory "") = .ofText result) :
    e.render none ⟨.of e.folding source tags, []⟩ data = result := by
  have hoffers := offers_of_result hcompile
  generalize ht : Template.mk (.of e.folding source tags) [] = t at hoffers
  obtain ⟨insert, heval⟩ := (e.renderer none t).eval_page e.maxDepth t.page ⟨[], data⟩ (.memory "")
  have hbody := (heval.trans (by rw [← ht]; rfl)).trans (h insert)
  cases result with
  | ok text => exact render_of_eval he hoffers hbody
  | error halt =>
    have hinto : e.renderInto none t data (.memory "") = .failed halt (.memory "") := by
      rw [renderInto_meaning he.sound (he.sound_of_offers hoffers) data (.memory ""), Renderer.meaning]
      have hlimit : (e.renderer none t).limit = e.maxDepth := rfl
      rw [hlimit, hbody]
      rfl
    rw [render, hinto]

end Engine

/-! ## Reading the name -/

theorem PathStyle.split_word {style : PathStyle} {name : String} (h : IsWord name)
    (hsep : style.separator ∉ name.toList) : style.split name = [name] := by
  have hparts : ∀ cs : List Char, style.separator ∉ cs → parts style.separator cs = [cs] := by
    intro cs hcs
    induction cs with
    | nil => rfl
    | cons c cs ih =>
      rw [List.mem_cons, not_or] at hcs
      rw [parts, if_neg (Ne.symm hcs.1), ih hcs.2]
  obtain ⟨c, cs, hname, hc, -⟩ := h
  have hdrop : name.toList.dropWhile (· == '/') = name.toList := by
    rw [hname, List.dropWhile_cons_of_neg]
    exact fun heq => Identifier.ne_of_isStart hc (by decide) (beq_iff_eq.mp heq)
  have hsplit : style.split name = (parts style.separator name.toList).map String.ofList := by
    cases style with
    | dots => rfl
    | slashes => rw [split, hdrop]
  rw [hsplit, hparts _ hsep, List.map_singleton, String.ofList_toList]

/-- No path has a step with a separator in it, so no name leads to a loop variable that has one. -/
theorem PathStyle.separator_notMem_split (style : PathStyle) (name : String) :
    ∀ step ∈ style.split name, style.separator ∉ step.toList := by
  have hparts : ∀ cs : List Char, ∀ part ∈ parts style.separator cs, style.separator ∉ part := by
    intro cs
    induction cs with
    | nil => simp [parts]
    | cons c cs ih =>
      rw [parts]
      split
      · exact List.forall_mem_cons.mpr ⟨List.not_mem_nil, ih⟩
      · next hc =>
        split
        · simp [Ne.symm hc]
        · next part rest hrest =>
          rw [hrest, List.forall_mem_cons] at ih
          refine List.forall_mem_cons.mpr ⟨?_, ih.2⟩
          rw [List.mem_cons, not_or]
          exact ⟨Ne.symm hc, ih.1⟩
  intro step hstep
  obtain ⟨part, hpart, rfl⟩ := List.mem_map.mp hstep
  rw [String.toList_ofList]
  exact hparts _ part hpart

namespace Body

variable {c : Context} {insert : Insertion} {l : Layer} {v : Value} {name : String} {place span : Span}
  {before : String}

theorem eval_output {tree : Expr} (h : tree.eval c l = .ok v) :
    (Body.output tree span .done).eval c insert ⟨l, .memory before⟩ =
      .done ⟨l, .memory (before ++ v.shown)⟩ := by
  simp only [eval, Progress.ofExcept, h, Outcome.bind_done]
  rfl

theorem eval_output_error {tree : Expr} {halt : Halt Error} {out : Output}
    (h : tree.eval c l = .error halt) :
    (Body.output tree span .done).eval c insert ⟨l, out⟩ = .failed halt out := by
  simp only [eval, Progress.ofExcept, h, Outcome.bind_failed]

theorem evalAll_output (tree : Expr) :
    (Body.output tree span .done).evalAll c insert (.memory "") =
      .ofText ((tree.eval c .empty).map Value.shown) := by
  cases htree : tree.eval c .empty with
  | error err =>
    rw [evalAll, eval_output_error htree]
    rfl
  | ok v =>
    rw [evalAll, eval_output htree, Outcome.bind_done, String.empty_append]
    rfl

theorem eval_name (word : Word) : (Expr.name word).eval c l = c.lookup l word.text word.span := by
  rw [Expr.eval]

theorem eval_name_of_find? {path : List String} (hpath : c.paths.split name = path)
    (h : (c.scope l).find? path = some v) : (Expr.name ⟨name, place⟩).eval c l = .ok v := by
  rw [eval_name, Context.lookup, hpath, h]

theorem evalAll_set {path : List String} {place' : Span} (hpath : c.paths.split name = path)
    (tree : Expr) :
    (Body.set path tree place (.output (.name ⟨name, place'⟩) span .done)).evalAll c insert (.memory "") =
      .ofText ((tree.eval c .empty).map Value.shown) := by
  cases htree : tree.eval c .empty with
  | error err =>
    simp only [evalAll, eval, Progress.ofExcept, htree, Outcome.bind_failed]
    rfl
  | ok v =>
    have hne : path ≠ [] := hpath ▸ c.paths.split_ne_nil name
    have hname : (Expr.name ⟨name, place'⟩).eval c (Layer.empty.set c.around path v) = .ok v :=
      eval_name_of_find? hpath (Scope.find?_set_empty c.around hne v)
    rw [evalAll, eval]
    simp only [Progress.ofExcept, htree, Outcome.bind_done]
    rw [eval_output hname, Outcome.bind_done, String.empty_append]
    rfl

theorem eachRow_items {frames : List Frame} {parent : Option Value}
    (hpath : c.paths.split name = [name]) (items : List Value) (index : Nat) :
    eachRow (eval c insert (.output (.name ⟨name, place⟩) span .done)) frames parent index
        (items.map fun v => [(name, v)]) ⟨l, .memory before⟩ =
      .done ⟨{ l with frames := frames },
        .memory (before ++ String.join (items.map Value.shown))⟩ := by
  induction items generalizing index before l with
  | nil =>
    rw [List.map_nil, List.map_nil, String.join_nil, String.append_empty]
    rfl
  | cons v items ih =>
    rw [List.map_cons, List.map_cons, String.join_cons, ← String.append_assoc, eachRow]
    have hname : (Expr.name ⟨name, place⟩).eval c
        { l with frames := ⟨[(name, v)], items.map fun v => [(name, v)], index, parent⟩ :: frames } =
          .ok v := by
      refine eval_name_of_find? hpath ?_
      simp [Context.scope, Scope.find?, Layer.find?, Frame.find?, Value.index?]
    rw [eval_output hname, Outcome.bind_done, ih]

theorem evalAll_loop_rows {stop : Span} {part : Part} {body : Body} {items : List Value}
    (hpart : part.expr.eval c .empty = .ok (.array (v :: items))) :
    (Body.loop (.item ⟨name, place⟩) part body stop .done).evalAll c insert (.memory "") =
      (eachRow (eval c insert body) [] (c.scope .empty).loopRecord? 0
        ((v :: items).map fun v => [(name, v)]) ⟨.empty, .memory ""⟩).bind fun p => .done p.out := by
  have hframe : c.frame? .empty (.item ⟨name, place⟩) (.array (v :: items)) part.span =
      .ok (some ⟨[(name, v)], items.map fun v => [(name, v)], 0, (c.scope .empty).loopRecord?⟩) := rfl
  rw [evalAll, eval]
  simp only [Progress.ofExcept, hpart, Outcome.bind_done, hframe]
  rw [List.map_cons]
  show ((eachRow _ [] _ 0 _ ⟨.empty, .memory ""⟩).bind _).bind _ = _
  generalize eachRow _ [] _ 0 _ ⟨.empty, .memory ""⟩ = rounds
  cases rounds <;> rfl

theorem evalAll_loop {place' stop : Span} {part : Part} {items : List Value}
    (hpath : c.paths.split name = [name]) (hpart : part.expr.eval c .empty = .ok (.array items)) :
    (Body.loop (.item ⟨name, place⟩) part (.output (.name ⟨name, place'⟩) span .done)
        stop .done).evalAll c insert (.memory "") =
      .ofText (.ok (String.join (items.map Value.shown))) := by
  cases items with
  | nil =>
    rw [evalAll, eval]
    simp only [Progress.ofExcept, hpart, Outcome.bind_done]
    rfl
  | cons v items =>
    rw [evalAll_loop_rows hpart, eachRow_items hpath, String.empty_append]
    rfl

theorem evalAll_loop_error {place' stop : Span} {part : Part} {items : List Value}
    {halt : Halt Error} (hpart : part.expr.eval c .empty = .ok (.array (v :: items)))
    (hname : c.lookup
      ⟨[⟨[(name, v)], items.map fun v => [(name, v)], 0, (c.scope .empty).loopRecord?⟩], []⟩
      name place' = .error halt) :
    (Body.loop (.item ⟨name, place⟩) part (.output (.name ⟨name, place'⟩) span .done)
        stop .done).evalAll c insert (.memory "") = .ofText (.error halt) := by
  have htree := (eval_name ⟨name, place'⟩).trans hname
  rw [evalAll_loop_rows hpart, List.map_cons, eachRow]
  exact congrArg (fun o => (Outcome.bind o _).bind _) (eval_output_error htree)

end Body

/-! ## Both ways to bind a name -/

namespace Engine

variable {e : Engine} {x name : String} {tree : Expr}

/-- An expression has the same value in any other source, or the same fault. -/
theorem eval_beside (e : Engine) {tree' : Expr} (hsame : tree.erase = tree'.erase)
    (source source' : String) (data : Value) (l : Layer) :
    SameFault (tree.eval (e.context source data) l) (tree'.eval (e.context source' data) l) := by
  have hbeside : (e.context source data).Beside (e.context source' data) := ⟨rfl, rfl, rfl, rfl⟩
  exact Expr.eval_same hbeside l hsame

theorem set_renders (he : e.Reached) (hm : e.markup.openers = Markup.standard.openers)
    (hname : IsWord name) (hread : IsReadable name) (hx : e.Expresses x tree) :
    ∃ t t', (e.compile (outputTag x)).result = .ok t ∧
      (e.compile (setTag name x ++ outputTag name)).result = .ok t' ∧
      ∀ data, SameFault (e.render none t' data) (e.render none t data) := by
  obtain ⟨tree', place, place', span, hsame, houtline⟩ := outline_set hm hname hread hx
  have hcompile := compile_plain hx (by simp)
  have hcompile' := compile_plain houtline (by simp)
  refine ⟨_, _, hcompile, hcompile', fun data => ?_⟩
  rw [render_plain he hcompile fun insert => Body.evalAll_output tree,
    render_plain he hcompile' fun insert => Body.evalAll_set rfl tree']
  have heval := e.eval_beside hsame (outputTag x) (setTag name x ++ outputTag name) data .empty
  rcases heval.cases with ⟨v, hv, hv'⟩ | ⟨r, r', hr, hr', hfault⟩
  · rw [hv, hv']
    rfl
  · rw [hr, hr']
    exact .of_fault hfault.symm

theorem for_renders (he : e.Reached) (hm : e.markup.openers = Markup.standard.openers)
    (hname : IsWord name) (hread : IsReadable name) (hx : e.Expresses x tree)
    (hsep : e.markup.paths.separator ∉ name.toList) {data : Value} {items : List Value}
    (hitems : tree.eval (e.context (outputTag x) data) .empty = .ok (.array items)) :
    ∃ t, (e.compile (forTag name x ++ outputTag name ++ endForTag)).result = .ok t ∧
      e.render none t data = .ok (String.join (items.map Value.shown)) := by
  obtain ⟨part, place, place', span, stop, hsame, houtline⟩ :=
    outline_for hm hname hread hx (hx.unsigned hm hitems)
  have hcompile := compile_plain houtline (by simp)
  have heval := e.eval_beside hsame (outputTag x)
    (forTag name x ++ outputTag name ++ endForTag) data .empty
  refine ⟨_, hcompile, render_plain he hcompile fun insert => ?_⟩
  exact Body.evalAll_loop (PathStyle.split_word hname hsep) (heval.ok_iff.mp hitems)

/-- In the standard markup every expression that can be output can be bound to every word that
expressions do not keep for themselves. Output instead of the expression, the word comes to the same text
or to the same fault. In a loop over an array it shows the items in their order, if it is a path of one
step. -/
theorem bound_read (he : e.Reached) (hm : e.markup.openers = Markup.standard.openers)
    (hname : IsWord name) (hread : IsReadable name) (hx : e.Expresses x tree) :
    (∃ t t', (e.compile (outputTag x)).result = .ok t ∧
      (e.compile (setTag name x ++ outputTag name)).result = .ok t' ∧
      ∀ data, SameFault (e.render none t' data) (e.render none t data)) ∧
    (e.markup.paths.separator ∉ name.toList → ∀ data items,
      tree.eval (e.context (outputTag x) data) .empty = .ok (.array items) →
      ∃ t, (e.compile (forTag name x ++ outputTag name ++ endForTag)).result = .ok t ∧
        e.render none t data = .ok (String.join (items.map Value.shown))) :=
  ⟨set_renders he hm hname hread hx,
    fun hsep _ _ hitems => for_renders he hm hname hread hx hsep hitems⟩

def numbersData : Value := .object [("xs", .array [.ofNat 1, .ofNat 2])]

def numbersName : Expr := .name ⟨"xs", ⟨3, 5⟩⟩

theorem expresses_numbers : lone.Expresses "xs" numbersName := by
  have hscan : Token.scan .standard (outputTag "xs") =
      [⟨.opening .expr, "\x7b\x7b", ⟨0, 2⟩⟩, ⟨.word, "xs", ⟨3, 5⟩⟩,
        ⟨.closing .expr, "\x7d\x7d", ⟨6, 8⟩⟩] := by rfl
  have hname : Keyword.ofText? "xs" = none := by decide
  have hmarkup : lone.markup = .standard := rfl
  have hsize : byteSize (outputTag "xs").toList = 8 := by rfl
  rw [Expresses, outline, hmarkup, hscan, hsize]
  simp [numbersName, Grammar.outline, Grammar.outlineFrom, Grammar.piece, Grammar.head,
    Grammar.keyword?, hname, Grammar.expect, Span.join, Outline.cons, Grammar.finish,
    Grammar.expr_word .expr, Grammar.wordOperand, Token.word]

theorem numbers_eval : numbersName.eval (lone.context (outputTag "xs") numbersData) .empty =
    .ok (.array [.ofNat 1, .ofNat 2]) := rfl

theorem bound_read_numbers : lone.Reached ∧ lone.markup.openers = Markup.standard.openers ∧
    IsWord "n" ∧ IsReadable "n" ∧ lone.Expresses "xs" numbersName ∧
    lone.markup.paths.separator ∉ "n".toList ∧
    numbersName.eval (lone.context (outputTag "xs") numbersData) .empty =
      .ok (.array [.ofNat 1, .ofNat 2]) ∧
    (∃ t t', (lone.compile (outputTag "xs")).result = .ok t ∧
      (lone.compile (setTag "n" "xs" ++ outputTag "n")).result = .ok t' ∧
      ∀ data, SameFault (lone.render none t' data) (lone.render none t data)) ∧
    ∃ t, (lone.compile (forTag "n" "xs" ++ outputTag "n" ++ endForTag)).result = .ok t ∧
      lone.render none t numbersData = .ok "12" := by
  have hname : IsWord "n" := ⟨'n', [], rfl, by decide, nofun⟩
  have hread : IsReadable "n" := .of_notKeyword (by decide)
  have hsep : lone.markup.paths.separator ∉ "n".toList := by decide
  obtain ⟨hset, hloop⟩ := bound_read lone_reached rfl hname hread expresses_numbers
  exact ⟨lone_reached, rfl, hname, hread, expresses_numbers, hsep, numbers_eval, hset,
    hloop hsep _ _ numbers_eval⟩

/-! ## Names that cannot be read -/

theorem outline_setTrue : lone.outline (setTag "true" "xs" ++ outputTag "true") =
    ⟨[.set ["true"] (.name ⟨"xs", ⟨14, 16⟩⟩) ⟨7, 16⟩, .output (.literal (.bool true) ⟨22, 26⟩) ⟨19, 29⟩],
      none⟩ := by
  have hscan : Token.scan .standard (setTag "true" "xs" ++ outputTag "true") =
      [⟨.opening .block, "\x7b%", ⟨0, 2⟩⟩, ⟨.word, "set", ⟨3, 6⟩⟩, ⟨.word, "true", ⟨7, 11⟩⟩,
        ⟨.assign, "=", ⟨12, 13⟩⟩, ⟨.word, "xs", ⟨14, 16⟩⟩, ⟨.closing .block, "%\x7d", ⟨17, 19⟩⟩,
        ⟨.opening .expr, "\x7b\x7b", ⟨19, 21⟩⟩, ⟨.word, "true", ⟨22, 26⟩⟩,
        ⟨.closing .expr, "\x7d\x7d", ⟨27, 29⟩⟩] := by rfl
  have hset : Keyword.ofText? "set" = some .setWord := by decide
  have htrue : Keyword.ofText? "true" = some .trueWord := by decide
  have hname : Keyword.ofText? "xs" = none := by decide
  have hmarkup : lone.markup = .standard := rfl
  have htarget : (lone.grammar (setTag "true" "xs" ++ outputTag "true")).target "true" = ["true"] := by rfl
  rw [outline, hmarkup, hscan]
  simp [Grammar.outline, Grammar.outlineFrom, Grammar.piece, Grammar.statementPiece, Grammar.statement,
    Grammar.head, Grammar.keyword?, hset, htrue, hname, htarget, Grammar.keywordStatement,
    Grammar.expect, Span.join, Grammar.tagEnd, Outline.cons, Grammar.finish, Grammar.expr_word .block,
    Grammar.expr_word .expr, Grammar.wordOperand, Token.word]

/-- What is assigned to the word for a literal does not change what the word is read as. A loop variable
with a dot in it is not found. -/
theorem names_unread :
    (∃ t t', (lone.compile (outputTag "xs")).result = .ok t ∧
      (lone.compile (setTag "true" "xs" ++ outputTag "true")).result = .ok t' ∧
      lone.render none t numbersData = .ok "[1,2]" ∧ lone.render none t' numbersData = .ok "true") ∧
    ∃ t err, (lone.compile (forTag "a.b" "xs" ++ outputTag "a.b" ++ endForTag)).result = .ok t ∧
      lone.render none t numbersData = .error (.raised err) ∧ err.fault = .unknownVariable "a.b" := by
  have hcompile := compile_plain expresses_numbers (by simp)
  have hcompile' := compile_plain outline_setTrue (by simp)
  refine ⟨⟨_, _, hcompile, hcompile', ?_, ?_⟩, ?_⟩
  · exact render_plain lone_reached hcompile fun insert => Body.evalAll_output numbersName
  · exact render_of_eval lone_reached (offers_of_result hcompile') rfl
  · have hword : IsWord "a.b" := ⟨'a', ['.', 'b'], rfl, by decide, List.all_eq_true.mp (by decide)⟩
    have hread : IsReadable "a.b" := .of_notKeyword (by decide)
    obtain ⟨part, place, place', span, stop, hsame, houtline⟩ :=
      outline_for rfl hword hread expresses_numbers (expresses_numbers.unsigned rfl numbers_eval)
    generalize hsource : forTag "a.b" "xs" ++ outputTag "a.b" ++ endForTag = source at houtline
    have hloop := compile_plain houtline (by simp)
    have hpart := (lone.eval_beside hsame (outputTag "xs") source numbersData .empty).ok_iff.mp
      numbers_eval
    refine ⟨_, .located (.unknownVariable "a.b") source place', hloop,
      render_plain lone_reached hloop fun insert => ?_, rfl⟩
    exact Body.evalAll_loop_error hpart (by rfl)

end Engine

end Stencil

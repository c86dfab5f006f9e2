import Stencil.Proofs.Compiling.Roles
import Stencil.Proofs.Including.Direct
import Stencil.Proofs.Placement.Remainder
/-!
# Which statements compile

A statement that can be read at some place can be read at every place where it fits, and is misplaced
everywhere else. So a source whose statements can be read one by one compiles exactly if they are balanced.
-/

namespace Stencil

open Opened

/-- A statement of a source, which may be a comment, and its first word. -/
structure Statement where
  tag : Option Tag
  word : Span

namespace Statement

def role (st : Statement) : Role := (st.tag.map Tag.role).getD .plain

def roles (sts : List Statement) : List Role := sts.map role

def tags (sts : List Statement) : List Tag := sts.filterMap tag

theorem tags_cons (st : Statement) (sts : List Statement) :
    tags (st :: sts) = st.tag.toList ++ tags sts := by
  cases htag : st.tag with
  | none => simp [tags, htag]
  | some t => simp [tags, htag]

end Statement

namespace Grammar

/-- Each statement of the tokens can be read where some blocks are open. -/
inductive Statements (g : Grammar) : List Token → List Statement → Prop
  | nil : g.Statements [] []
  | cons {opened : List Open} {t : Token} {ts us : List Token} {p : Piece} {sts : List Statement} :
    g.piece opened t ts = .ok p → p.after = .ok us → g.Statements us sts →
      g.Statements (t :: ts) (⟨p.tag, (g.head ts).span⟩ :: sts)

/-- Reads something at every place where its role fits, and is misplaced everywhere else. -/
structure Anywhere (x : List Open → Except Reject α) (r : Role) (word : Span) (found : List Open → α) :
    Prop where
  placed : ∀ opened opened', place? opened r = some opened' → x opened = .ok (found opened')
  misplaced : ∀ opened closer, r = .closes closer → close? opened closer = none →
    x opened = .error (misplaced closer word)

variable {g : Grammar} {t : Token} {ts us : List Token} {opened opened' : List Open} {tag : Tag}
  {span : Span}

/-! ## Statements -/

theorem Anywhere.ofPlain {x : List Open → Except Reject α} {r : Role} {found : List Open → α}
    (hr : ∀ closer, r ≠ .closes closer)
    (h : ∀ opened opened', place? opened r = some opened' → x opened = .ok (found opened')) :
    Anywhere x r span found :=
  ⟨h, fun _ closer heq => absurd heq (hr closer)⟩

theorem Anywhere.bind {y : Except Reject β} {f : β → List Open → Except Reject α} {r : Role}
    {found : List Open → α} {a : α} (h : (do f (← y) opened) = .ok a)
    (hf : ∀ b, f b opened = .ok a → Anywhere (f b) r span found) :
    Anywhere (fun opened => do f (← y) opened) r span found := by
  cases y with
  | error err => cases h
  | ok b => exact hf b h

theorem ending_anywhere {closer : Closer} {t : Tag} (ht : t.role = .closes closer)
    (h : ending closer t span opened ts = .ok ((tag, opened'), us)) :
    Anywhere (ending closer t span · ts) tag.role span fun o => ((tag, o), us) := by
  have hread : tag = t ∧ us = ts := by
    unfold ending at h
    split at h <;> cases h
    exact ⟨rfl, rfl⟩
  obtain ⟨rfl, rfl⟩ := hread
  rw [ht]
  constructor
  · intro opened opened' hplace
    simp only [place?] at hplace
    simp [ending, hplace]
  · rintro opened _ ⟨⟩ hclose
    simp [ending, hclose]

theorem elseStatement_anywhere
    (h : g.elseStatement span opened ts = .ok ((tag, opened'), us)) :
    Anywhere (g.elseStatement span · ts) tag.role span fun o => ((tag, o), us) := by
  unfold elseStatement at h ⊢
  split at h
  · next hahead =>
    have hread : ∃ test, g.expr ts.tail = .ok (test, us) ∧ tag = .otherwiseIf span test := by
      split at h
      · cases hexpr : g.expr ts.tail with
        | error r => rw [hexpr] at h; cases h
        | ok read =>
          rw [hexpr] at h
          cases h
          exact ⟨_, rfl, rfl⟩
      · cases h
    obtain ⟨test, hexpr, rfl⟩ := hread
    constructor
    · intro opened opened' hplace
      simp only [Tag.role, place?] at hplace
      simp only [hahead, if_true, hplace, hexpr]
      rfl
    · rintro opened _ ⟨⟩ hclose
      simp only [hahead, if_true, hclose]
  · next hahead =>
    simp only [hahead]
    exact ending_anywhere rfl h

theorem keywordStatement_anywhere {word : Keyword}
    (h : g.keywordStatement word t opened ts = .ok ((tag, opened'), us)) :
    Anywhere (g.keywordStatement word t · ts) tag.role t.span fun o => ((tag, o), us) := by
  unfold keywordStatement at h ⊢
  split at h
  · refine .bind h ?_
    rintro ⟨test, vs⟩ ⟨⟩
    exact .ofPlain nofun fun _ _ hplace => by cases hplace; rfl
  · exact elseStatement_anywhere h
  · exact ending_anywhere rfl h
  · refine .bind h ?_
    rintro ⟨binder, vs⟩ h
    refine .bind h ?_
    rintro ⟨_, vs⟩ h
    refine .bind h ?_
    rintro ⟨source, vs⟩ ⟨⟩
    exact .ofPlain nofun fun _ _ hplace => by cases hplace; rfl
  · exact ending_anywhere rfl h
  · refine .bind h ?_
    rintro ⟨⟨name, place⟩, vs⟩ ⟨⟩
    exact .ofPlain nofun fun _ _ hplace => by cases hplace; rfl
  · refine .bind h ?_
    rintro ⟨name, vs⟩ h
    refine .bind h ?_
    rintro ⟨_, vs⟩ h
    refine .bind h ?_
    rintro ⟨value, vs⟩ ⟨⟩
    exact .ofPlain nofun fun _ _ hplace => by cases hplace; rfl
  · cases h

theorem statement_anywhere (h : g.statement opened ts = .ok ((tag, opened'), us)) :
    Anywhere (g.statement · ts) tag.role (g.head ts).span fun o => ((tag, o), us) := by
  unfold statement at h ⊢
  dsimp only at h ⊢
  split at h
  · next hkind =>
    cases hword : keyword? (g.head ts) with
    | none => rw [hword] at h; cases h
    | some word =>
      rw [hword] at h
      simp only [hkind, if_true]
      exact keywordStatement_anywhere h
  · cases h

/-! ## Tags -/

theorem piece_anywhere {p : Piece} (h : g.piece opened t ts = .ok p) :
    Anywhere (g.piece · t ts) (Statement.role ⟨p.tag, (g.head ts).span⟩) (g.head ts).span
      fun o => { p with opened := o } := by
  unfold piece at h ⊢
  split at h
  · cases h
    exact .ofPlain nofun fun _ _ hplace => by cases hplace; rfl
  · cases h
    exact .ofPlain nofun fun _ _ hplace => by cases hplace; rfl
  · refine .bind h ?_
    rintro ⟨e, us⟩ h
    refine .bind h ?_
    rintro ⟨stop, us⟩ ⟨⟩
    exact .ofPlain nofun fun _ _ hplace => by cases hplace; rfl
  · unfold statementPiece at h ⊢
    cases hstatement : g.statement opened ts with
    | error r => rw [hstatement] at h; cases h
    | ok read =>
      rw [hstatement] at h
      cases h
      obtain ⟨hplaced, hmisplaced⟩ := statement_anywhere hstatement
      constructor
      · intro opened₁ opened₂ hplace
        rw [hplaced opened₁ opened₂ hplace]
        rfl
      · intro opened₁ closer hcloser hclose
        rw [hmisplaced opened₁ closer hcloser hclose]
        rfl
  · cases h

/-! ## Outlines -/

theorem outlineFrom_nil (n : Nat) (opened : List Open) : g.outlineFrom n opened [] = g.finish opened := by
  cases n <;> rfl

/-- The outline has the tags of all statements, or of those in front of the first that is misplaced. -/
theorem outlineFrom_statements {sts : List Statement} (h : g.Statements ts sts) {n : Nat}
    (hn : ts.length ≤ n) (opened : List Open) :
    (∀ opened', walk? opened (Statement.roles sts) = some opened' →
      g.outlineFrom n opened ts = ⟨Statement.tags sts, (g.finish opened').fault⟩) ∧
    (walk? opened (Statement.roles sts) = none → ∃ before st after opened' closer,
      sts = before ++ st :: after ∧ walk? opened (Statement.roles before) = some opened' ∧
      st.role = .closes closer ∧ close? opened' closer = none ∧
      g.outlineFrom n opened ts = ⟨Statement.tags before, some (misplaced closer st.word)⟩) := by
  induction h generalizing n opened with
  | nil =>
    refine ⟨?_, nofun⟩
    rintro _ ⟨⟩
    exact outlineFrom_nil n opened
  | @cons opened₀ t ts us p sts hpiece hafter _ ih =>
    obtain ⟨hplaced, hmisplaced⟩ := piece_anywhere hpiece
    have hus := (piece_suffix hpiece hafter).length_le
    rw [List.length_cons] at hn
    obtain ⟨m, rfl⟩ : ∃ m, n = m + 1 := ⟨n - 1, by omega⟩
    cases hplace : place? opened (Statement.role ⟨p.tag, (g.head ts).span⟩) with
    | some opened₁ =>
      have hwalk : walk? opened (Statement.roles (⟨p.tag, (g.head ts).span⟩ :: sts)) =
          walk? opened₁ (Statement.roles sts) := by
        simp [Statement.roles, walk?, hplace]
      have houtline : g.outlineFrom (m + 1) opened (t :: ts) =
          .cons p.tag (g.outlineFrom m opened₁ us) := by
        rw [outlineFrom, hplaced opened opened₁ hplace]
        simp only [hafter]
      obtain ⟨hfits, hfails⟩ := ih (by omega : us.length ≤ m) opened₁
      rw [hwalk, houtline]
      constructor
      · intro opened₂ hopened
        rw [hfits opened₂ hopened, Statement.tags_cons]
        rfl
      · intro hnone
        obtain ⟨before, st, after, opened₂, closer, rfl, hbefore, hst, hclose, hrest⟩ := hfails hnone
        refine ⟨⟨p.tag, (g.head ts).span⟩ :: before, st, after, opened₂, closer, rfl, ?_, hst, hclose, ?_⟩
        · simpa [Statement.roles, walk?, hplace] using hbefore
        · rw [hrest, Statement.tags_cons]
          rfl
    | none =>
      obtain ⟨closer, hrole, hclose⟩ := place?_eq_none.mp hplace
      refine ⟨?_, fun _ => ⟨[], _, sts, opened, closer, rfl, rfl, hrole, hclose, ?_⟩⟩
      · intro opened₁ hwalk
        simp [Statement.roles, walk?, hplace] at hwalk
      · rw [outlineFrom, hmisplaced opened closer hrole hclose]
        rfl

end Grammar

/-! ## Compiling -/

/-- What is wrong with statements that are not balanced, in a source of so many bytes. -/
inductive Unbalanced (sts : List Statement) (stop : Nat) : Fault → Span → Prop
  /-- The first statement that nothing could make balanced. -/
  | misplaced {before after : List Statement} {st : Statement} {closer : Closer} :
    sts = before ++ st :: after → Viable (Statement.roles before) →
    ¬ Viable (Statement.roles (before ++ [st])) → st.role = .closes closer →
      Unbalanced sts stop (.misplaced closer) st.word
  /-- Only closers are missing. The innermost open block begins behind `before`. -/
  | unmatched {before inside : List Role} {block : BlockKind} {blocks : List BlockKind} :
    Statement.roles sts = before ++ .opens block :: inside → Interior block inside →
    Balanced (Statement.roles sts ++ closers (block :: blocks)) →
      Unbalanced sts stop (.unmatched block) (.point stop)

theorem Unbalanced.kind {sts : List Statement} {stop : Nat} {fault : Fault} {span : Span}
    (h : Unbalanced sts stop fault span) : fault.kind = .parser := by
  cases h <;> rfl

namespace Grammar

variable {g : Grammar} {ts : List Token} {sts : List Statement}

theorem outline_statements (h : g.Statements ts sts) :
    (Balanced (Statement.roles sts) ∧ g.outline ts = ⟨Statement.tags sts, none⟩) ∨
    (¬ Balanced (Statement.roles sts) ∧ ∃ before after r, sts = before ++ after ∧
      g.outline ts = ⟨Statement.tags before, some r⟩ ∧ Unbalanced sts g.stop r.fault r.span) := by
  obtain ⟨hfits, hfails⟩ := outlineFrom_statements h (Nat.le_refl _) []
  rw [balanced_iff]
  unfold outline
  cases hwalk : walk? [] (Statement.roles sts) with
  | some opened =>
    rw [hfits opened hwalk]
    cases opened with
    | nil => exact .inl ⟨rfl, rfl⟩
    | cons o opened =>
      obtain ⟨⟨before, inside, hsplit, hinside⟩, hclosers⟩ := innermost_of_walk hwalk
      exact .inr ⟨nofun, sts, [], _, (List.append_nil sts).symm, rfl, .unmatched hsplit hinside hclosers⟩
  | none =>
    obtain ⟨before, st, after, opened, closer, hsts, hbefore, hst, hclose, houtline⟩ := hfails hwalk
    refine .inr ⟨nofun, before, st :: after, _, hsts, houtline, .misplaced hsts ?_ ?_ hst⟩
    · exact viable_iff.mpr ⟨opened, hbefore⟩
    · rw [viable_iff, Statement.roles, List.map_append, walk?_append]
      rw [Statement.roles] at hbefore
      simp [hbefore, walk?, hst, place?, hclose]

end Grammar

namespace Engine

variable {e : Engine} {compile : Compile} {n : Nat} {name : Option String} {source base : String}
  {ts us : List Tag} {s s' : Gathering}

theorem resolveAll_front {vs : List Tag}
    (h : e.resolveAll compile source base (ts ++ us) s = (.ok vs, s')) :
    ∃ ws s₁, e.resolveAll compile source base ts s = (.ok ws, s₁) := by
  induction ts generalizing s vs with
  | nil => exact ⟨[], s, rfl⟩
  | cons t ts ih =>
    by_cases ht : ∃ name place span, t = .inclusion name place span
    · obtain ⟨name, place, span, rfl⟩ := ht
      obtain ⟨key, s₁, vs, hresolve, hrest, rfl⟩ := resolveAll_inclusion_cases h
      obtain ⟨ws, s₂, hws⟩ := ih hrest
      exact ⟨_, s₂, resolveAll_inclusion hresolve hws⟩
    · have hother : ∀ name place span, t ≠ .inclusion name place span :=
        fun name place span heq => ht ⟨name, place, span, heq⟩
      obtain ⟨vs, rfl, hrest⟩ := resolveAll_other hother h
      obtain ⟨ws, s₂, hws⟩ := ih hrest
      refine ⟨t :: ws, s₂, ?_⟩
      cases t with
      | inclusion name place span => exact absurd rfl (hother name place span)
      | _ => simp only [resolveAll, hws]

theorem compileWith_fault {r : Reject} (h : (e.outline source).fault = some r)
    (hts : e.resolveAll compile source base (e.outline source).tags s = (.ok us, s')) :
    e.compileWith compile source base s = (.error (.located r.fault source r.span), s') := by
  unfold compileWith
  dsimp only
  rw [hts]
  simp only [h]

/-- A source whose statements can be read one by one, and whose includes are found, compiles exactly if
the statements are balanced. The error says otherwise what is wrong with them. -/
theorem blocks_decide {sts : List Statement} (hfuel : e.fuel = n + 1)
    (hsts : (e.grammar source).Statements (Token.scan e.markup source) sts)
    (hincludes : e.resolveAll (e.page n) source base (Statement.tags sts) (.start name) = (.ok us, s')) :
    ((∃ t, (e.compileNamed name source base).result = .ok t) ↔ Balanced (Statement.roles sts)) ∧
    (¬ Balanced (Statement.roles sts) → ∃ fault span,
      (e.compileNamed name source base).result =
        .error ((Error.located fault source span).orInOptional name) ∧
      fault.kind = .parser ∧ Unbalanced sts (byteSize source.toList) fault span) := by
  rcases (Grammar.outline_statements hsts) with ⟨hbalanced, houtline⟩ |
    ⟨hbalanced, before, after, r, rfl, houtline, hfault⟩
  · have hpage : e.page e.fuel source base (.start name) = (.ok (.of e.folding source us), s') := by
      rw [hfuel, page, compileWith_iff, outline, houtline]
      exact ⟨rfl, us, rfl, hincludes⟩
    refine ⟨⟨fun _ => hbalanced, fun _ => ?_⟩, fun h => absurd hbalanced h⟩
    rw [compileNamed, hpage]
    exact ⟨_, rfl⟩
  · have hfront : ∃ ws s₁, e.resolveAll (e.page n) source base (Statement.tags before) (.start name) =
        (.ok ws, s₁) := by
      have hsplit : Statement.tags (before ++ after) = Statement.tags before ++ Statement.tags after := by
        rw [Statement.tags, List.filterMap_append]
        rfl
      rw [hsplit] at hincludes
      exact resolveAll_front hincludes
    obtain ⟨ws, s₁, hws⟩ := hfront
    have hpage : e.page e.fuel source base (.start name) =
        (.error (.located r.fault source r.span), s₁) := by
      rw [hfuel, page]
      apply compileWith_fault
      · rw [outline, houtline]
      · rw [outline, houtline]
        exact hws
    have hresult : (e.compileNamed name source base).result =
        .error ((Error.located r.fault source r.span).orInOptional name) := by
      rw [compileNamed, hpage]
    refine ⟨⟨?_, fun h => absurd h hbalanced⟩, fun _ => ⟨r.fault, r.span, hresult, hfault.kind, hfault⟩⟩
    rintro ⟨t, ht⟩
    rw [hresult] at ht
    cases ht

def crossedSource : String := "\x7b% if x %\x7d\x7b# c #\x7d\x7b% endfor %\x7d"

def crossedStatements : List Statement :=
  [⟨some (.cond ⟨.name ⟨"x", ⟨6, 7⟩⟩, ⟨6, 7⟩⟩), ⟨3, 5⟩⟩, ⟨none, ⟨12, 17⟩⟩,
    ⟨some (.endFor ⟨20, 26⟩), ⟨20, 26⟩⟩]

theorem crossed_statements (g : Grammar) :
    g.Statements (Token.scan .standard crossedSource) crossedStatements := by
  have hscan : Token.scan .standard crossedSource =
      [⟨.opening .block, "\x7b%", ⟨0, 2⟩⟩, ⟨.word, "if", ⟨3, 5⟩⟩, ⟨.word, "x", ⟨6, 7⟩⟩,
        ⟨.closing .block, "%\x7d", ⟨8, 10⟩⟩, ⟨.opening .comment, "\x7b#", ⟨10, 12⟩⟩,
        ⟨.closing .comment, " c #\x7d", ⟨12, 17⟩⟩, ⟨.opening .block, "\x7b%", ⟨17, 19⟩⟩,
        ⟨.word, "endfor", ⟨20, 26⟩⟩, ⟨.closing .block, "%\x7d", ⟨27, 29⟩⟩] := by rfl
  have hif : Keyword.ofText? "if" = some .ifWord := by decide
  have hname : Keyword.ofText? "x" = none := by decide
  have hcond (ts : List Token) :
      g.piece [] ⟨.opening .block, "\x7b%", ⟨0, 2⟩⟩ (⟨.word, "if", ⟨3, 5⟩⟩ :: ⟨.word, "x", ⟨6, 7⟩⟩ ::
          ⟨.closing .block, "%\x7d", ⟨8, 10⟩⟩ :: ts) =
        .ok ⟨some (.cond ⟨.name ⟨"x", ⟨6, 7⟩⟩, ⟨6, 7⟩⟩), [.cond false], .ok ts⟩ := by
    simp [Grammar.piece, Grammar.statementPiece, Grammar.statement, Grammar.head, Grammar.keyword?, hif,
      hname, Grammar.keywordStatement, Grammar.tagEnd, Grammar.expr_word .block, Grammar.wordOperand,
      Token.word]
  have hcomment (ts : List Token) :
      g.piece [] ⟨.opening .comment, "\x7b#", ⟨10, 12⟩⟩
        (⟨.closing .comment, " c #\x7d", ⟨12, 17⟩⟩ :: ts) = .ok ⟨none, [], .ok ts⟩ := rfl
  have hloop : g.piece [.loop] ⟨.opening .block, "\x7b%", ⟨17, 19⟩⟩
      [⟨.word, "endfor", ⟨20, 26⟩⟩, ⟨.closing .block, "%\x7d", ⟨27, 29⟩⟩] =
        .ok ⟨some (.endFor ⟨20, 26⟩), [], .ok []⟩ := rfl
  rw [hscan]
  exact .cons (hcond _) rfl (.cons (hcomment _) rfl (.cons hloop rfl .nil))

theorem crossed_decide : ∃ fault span,
    (({ loader := none } : Engine).compileNamed none crossedSource "").result =
      .error (.located fault crossedSource span) ∧
    fault.kind = .parser ∧
    Unbalanced crossedStatements (byteSize crossedSource.toList) fault span := by
  have hbalanced : ¬ Balanced (Statement.roles crossedStatements) := by
    rw [balanced_iff]
    decide
  exact (blocks_decide (n := 0) rfl (crossed_statements _) rfl).2 hbalanced

end Engine

end Stencil

import Stencil.Proofs.Including.Lists
import Stencil.Proofs.Scanning.Cutting
/-!
# The text of includes

In the standard markup a source that is put together from include tags reads as those includes, if no
name has to be escaped.
-/

namespace Stencil

/-- Characters that stand for themselves in a string literal. -/
def Plain (cs : List Char) : Prop := ∀ c ∈ cs, 0x20 ≤ c.toNat ∧ c ≠ '"' ∧ c ≠ '\\'

-- One character of the list after the other, not every character there is.
instance (cs : List Char) : Decidable (Plain cs) := List.decidableBAll _ cs

def includeTag (name : List Char) : List Char :=
  ['\x7b', '%', ' ', 'i', 'n', 'c', 'l', 'u', 'd', 'e', ' ', '"'] ++ name ++ ['"', ' ', '%', '\x7d']

def includeSource (names : List String) : String :=
  String.ofList (names.flatMap fun name => includeTag name.toList)

/-! ## The name -/

theorem Json.stringBody?_plain {name : List Char} (h : Plain name) (n : Nat) :
    stringBody? (n + name.length + 1) (name ++ ['"']) = some (name, []) := by
  induction name with
  | nil => rfl
  | cons c cs ih =>
    unfold Plain at h
    rw [List.forall_mem_cons] at h
    obtain ⟨⟨hprinted, hquote, hslash⟩, hcs⟩ := h
    have hspace : ¬ c < ' ' := Nat.not_lt.mpr hprinted
    rw [List.length_cons, List.cons_append, ← Nat.add_assoc]
    rw [stringBody?]
    · simp [hspace, hslash, ih hcs]
    all_goals simp [hquote, hslash]

theorem Json.read?_plain {name : List Char} (h : Plain name) :
    read? (String.ofList ('"' :: (name ++ ['"']))) = some (.string (String.ofList name)) := by
  have hbody : string? ('"' :: (name ++ ['"'])) = some (String.ofList name, []) := by
    have hfuel : (name ++ ['"']).length + 1 = 1 + name.length + 1 := by
      simp only [List.length_append, List.length_singleton]
      omega
    rw [string?, hfuel, stringBody?_plain h]
    rfl
  have hvalue : ∀ n, value? (n + 1) 127 ('"' :: (name ++ ['"'])) =
      (string? ('"' :: (name ++ ['"']))).map fun r => (.string r.1, r.2) := fun n => by
    rw [value?]
    rfl
  rw [read?, String.toList_ofList, hvalue, hbody]
  rfl

theorem Token.stringRest_plain {name : List Char} (h : Plain name) (rest : List Char) :
    stringRest false (name ++ '"' :: rest) = (name ++ ['"'], rest) := by
  induction name with
  | nil => rfl
  | cons c cs ih =>
    unfold Plain at h
    rw [List.forall_mem_cons] at h
    obtain ⟨⟨_, hquote, hslash⟩, hcs⟩ := h
    have hescape : (c == '\\') = false := by simpa using hslash
    rw [List.cons_append, stringRest, if_neg hquote, hescape, ih hcs]
    rfl

/-! ## Tokens -/

namespace Token

inductive Includes : List (List Char) → List Token → Prop
  | nil : Includes [] []
  | cons {name : List Char} {names : List (List Char)} {ts : List Token} (s₁ s₂ s₃ s₄ : Span) :
    Includes names ts → Includes (name :: names)
      (⟨.opening .block, "\x7b%", s₁⟩ :: ⟨.word, "include", s₂⟩ ::
        ⟨.string, String.ofList ('"' :: (name ++ ['"'])), s₃⟩ ::
          ⟨.closing .block, "%\x7d", s₄⟩ :: ts)

theorem textStep_include (place : Nat) (lineStart : Bool) (cs : List Char) :
    step .standard (.text .nothing) ⟨place, '\x7b' :: '%' :: ' ' :: cs, lineStart⟩ =
      ⟨[⟨.opening .block, "\x7b%", ⟨place, place + 2⟩⟩],
        some (.tag blockOpener false, ⟨place + 2, ' ' :: cs, false⟩)⟩ := by
  rfl

theorem tagStep_word (place : Nat) (lineStart : Bool) (cs : List Char) :
    step .standard (.tag blockOpener false)
      ⟨place, ' ' :: 'i' :: 'n' :: 'c' :: 'l' :: 'u' :: 'd' :: 'e' :: ' ' :: '"' :: cs, lineStart⟩ =
      ⟨[⟨.word, "include", ⟨place + 1, place + 8⟩⟩],
        some (.tag blockOpener true, ⟨place + 8, ' ' :: '"' :: cs, false⟩)⟩ := by
  rfl

theorem tagStep_name {name : List Char} (h : Plain name) (place : Nat) (lineStart : Bool)
    (cs : List Char) :
    ∃ span place', step .standard (.tag blockOpener true)
      ⟨place, ' ' :: '"' :: (name ++ '"' :: cs), lineStart⟩ =
      ⟨[⟨.string, String.ofList ('"' :: (name ++ ['"'])), span⟩],
        some (.tag blockOpener true, ⟨place', cs, false⟩)⟩ := by
  have hlexeme : lexeme blockOpener.closing true '"' (name ++ '"' :: cs) =
      ⟨.string, '"' :: (name ++ ['"']), cs⟩ := by
    rw [lexeme, if_pos rfl, stringRest_plain h]
    rfl
  have hlast : ('"' :: (name ++ ['"'])).getLast? = some '"' := by
    rw [← List.cons_append, List.getLast?_concat]
  have hstep : step .standard (.tag blockOpener true)
      ⟨place, ' ' :: '"' :: (name ++ '"' :: cs), lineStart⟩ =
      let c : Cursor := ⟨place + 1, '"' :: (name ++ '"' :: cs), false⟩
      let found := lexeme blockOpener.closing true '"' (name ++ '"' :: cs)
      ⟨[c.token found.kind found.taken],
        some (.tag blockOpener found.kind.endsOperand, c.past found.taken found.rest)⟩ := rfl
  rw [hstep, hlexeme]
  simp only [Cursor.token, Cursor.past, hlast]
  exact ⟨_, _, rfl⟩

theorem tagStep_closing (place : Nat) (lineStart : Bool) (cs : List Char) :
    step .standard (.tag blockOpener true) ⟨place, ' ' :: '%' :: '\x7d' :: cs, lineStart⟩ =
      ⟨[⟨.closing .block, "%\x7d", ⟨place + 1, place + 3⟩⟩],
        some (.text .nothing, ⟨place + 3, cs, false⟩)⟩ := by
  rfl

theorem steps_include {name : List Char} (h : Plain name) (n place : Nat) (lineStart : Bool)
    (cs : List Char) : ∃ s₁ s₂ s₃ s₄ place',
    steps .standard (n + 4) (.text .nothing) ⟨place, includeTag name ++ cs, lineStart⟩ =
      ⟨.opening .block, "\x7b%", s₁⟩ :: ⟨.word, "include", s₂⟩ ::
        ⟨.string, String.ofList ('"' :: (name ++ ['"'])), s₃⟩ ::
          ⟨.closing .block, "%\x7d", s₄⟩ ::
            steps .standard n (.text .nothing) ⟨place', cs, false⟩ := by
  have htag : includeTag name ++ cs =
      '\x7b' :: '%' :: ' ' :: 'i' :: 'n' :: 'c' :: 'l' :: 'u' :: 'd' :: 'e' :: ' ' :: '"' ::
        (name ++ '"' :: ' ' :: '%' :: '\x7d' :: cs) := by
    simp only [includeTag, List.append_assoc, List.cons_append, List.nil_append]
  obtain ⟨s₃, place₃, hname⟩ := tagStep_name h (place + 2 + 8) false (' ' :: '%' :: '\x7d' :: cs)
  refine ⟨⟨place, place + 2⟩, ⟨place + 2 + 1, place + 2 + 8⟩, s₃, ⟨place₃ + 1, place₃ + 3⟩,
    place₃ + 3, ?_⟩
  rw [htag, steps, textStep_include]
  dsimp only
  rw [List.singleton_append, steps, tagStep_word]
  dsimp only
  rw [List.singleton_append, steps, hname]
  dsimp only
  rw [List.singleton_append, steps, tagStep_closing]
  rfl

theorem steps_includes {names : List (List Char)} (h : ∀ name ∈ names, Plain name) {n : Nat}
    (hn : 4 * names.length ≤ n) (place : Nat) (lineStart : Bool) :
    Includes names (steps .standard (n + 1) (.text .nothing)
      ⟨place, names.flatMap includeTag, lineStart⟩) := by
  induction names generalizing n place lineStart with
  | nil => exact .nil
  | cons name names ih =>
    rw [List.forall_mem_cons] at h
    rw [List.length_cons] at hn
    obtain ⟨n, rfl⟩ : ∃ k, n = k + 4 := ⟨n - 4, by omega⟩
    obtain ⟨s₁, s₂, s₃, s₄, place', hsteps⟩ :=
      steps_include h.1 (n + 1) place lineStart (names.flatMap includeTag)
    rw [List.flatMap_cons, Nat.add_right_comm n 4 1, hsteps]
    exact .cons s₁ s₂ s₃ s₄ (ih h.2 (by omega) place' false)

theorem length_includeTags (names : List (List Char)) :
    4 * names.length ≤ (names.flatMap includeTag).length := by
  induction names with
  | nil => exact Nat.zero_le _
  | cons name names ih =>
    simp only [List.flatMap_cons, List.length_append, List.length_cons, includeTag] at ih ⊢
    omega

theorem scan_includes {names : List String} (h : ∀ name ∈ names, Plain name.toList) :
    Includes (names.map String.toList) (scan .standard (includeSource names)) := by
  have hchars : (includeSource names).toList = (names.map String.toList).flatMap includeTag := by
    rw [includeSource, String.toList_ofList, List.flatMap_map]
  have hplain : ∀ name ∈ names.map String.toList, Plain name := List.forall_mem_map.mpr h
  rw [scan, hchars]
  exact steps_includes hplain (length_includeTags _) 0 true

end Token

/-! ## Tags -/

namespace Grammar

theorem piece_include {g : Grammar} {name : List Char} (h : Plain name) (s₁ s₂ s₃ s₄ : Span)
    (ts : List Token) :
    g.piece [] ⟨.opening .block, "\x7b%", s₁⟩
      (⟨.word, "include", s₂⟩ :: ⟨.string, String.ofList ('"' :: (name ++ ['"'])), s₃⟩ ::
        ⟨.closing .block, "%\x7d", s₄⟩ :: ts) =
      .ok ⟨some (.inclusion (String.ofList name) s₃ (s₂.join s₃)), [], .ok ts⟩ := by
  have hword : Keyword.ofText? "include" = some .includeWord := by decide
  have hname : g.stringLiteral (⟨.string, String.ofList ('"' :: (name ++ ['"'])), s₃⟩ ::
      ⟨.closing .block, "%\x7d", s₄⟩ :: ts) =
      .ok ((String.ofList name, s₃), ⟨.closing .block, "%\x7d", s₄⟩ :: ts) := by
    simp only [stringLiteral, expect, head, if_pos, except_ok_bind, Json.read?_plain h]
    rfl
  generalize String.ofList ('"' :: (name ++ ['"'])) = literal at hname ⊢
  simp [piece, statementPiece, statement, head, keyword?, hword, keywordStatement, hname, tagEnd]

theorem outlineFrom_includes {g : Grammar} {names : List (List Char)} {ts : List Token}
    (h : Token.Includes names ts) (hplain : ∀ name ∈ names, Plain name) {n : Nat}
    (hn : names.length ≤ n) :
    (g.outlineFrom n [] ts).fault = none ∧
      (names.map String.ofList).Forall₂ Tag.Includes (g.outlineFrom n [] ts).tags := by
  induction h generalizing n with
  | nil =>
    cases n <;> exact ⟨rfl, .nil⟩
  | @cons name names ts s₁ s₂ s₃ s₄ _ ih =>
    rw [List.forall_mem_cons] at hplain
    rw [List.length_cons] at hn
    obtain ⟨n, rfl⟩ : ∃ k, n = k + 1 := ⟨n - 1, by omega⟩
    obtain ⟨hfault, htags⟩ := ih hplain.2 (Nat.le_of_succ_le_succ hn)
    rw [outlineFrom, piece_include hplain.1]
    exact ⟨hfault, .cons ⟨_, _, rfl⟩ htags⟩

end Grammar

theorem Token.Includes.length_le {names : List (List Char)} {ts : List Token}
    (h : Includes names ts) : names.length ≤ ts.length := by
  induction h with
  | nil => exact Nat.le_refl 0
  | cons _ _ _ _ _ ih =>
    simp only [List.length_cons]
    omega

theorem Engine.lists_includes {e : Engine} (hmarkup : e.markup = .standard) {names : List String}
    (h : ∀ name ∈ names, Plain name.toList) : e.Lists (includeSource names) names := by
  have hscan := Token.scan_includes h
  have hplain : ∀ name ∈ names.map String.toList, Plain name := List.forall_mem_map.mpr h
  obtain ⟨hfault, htags⟩ := Grammar.outlineFrom_includes (g := e.grammar (includeSource names))
    hscan hplain hscan.length_le
  have hnames : (names.map String.toList).map String.ofList = names := by
    simp [Function.comp_def]
  rw [hnames] at htags
  refine ⟨?_, ?_⟩ <;> rw [outline, hmarkup]
  · exact hfault
  · exact htags

example : includeSource ["b", "a"] = "\x7b% include \"b\" %\x7d\x7b% include \"a\" %\x7d" := by decide

/-! ## A template that includes another one -/

namespace Engine

def digitPage (digit : String) : Page := .of true digit [.text digit ⟨0, 1⟩]

def lone : Engine := { loader := none, templates := [("a", ⟨digitPage "1", []⟩)] }

def stacked : Engine where
  loader := none
  templates := [("a", ⟨digitPage "1", []⟩), ("b", ⟨loopPage, [("a", digitPage "1")]⟩)]

theorem compiles_digit {e : Engine} {name : Option String} {base digit : String}
    (hmarkup : e.markup = .standard) (hfolding : e.folding = true)
    (hscan : Token.scan .standard digit = [⟨.text, digit, ⟨0, 1⟩⟩]) :
    e.Compiles name digit base ⟨digitPage digit, []⟩ := by
  have houtline : e.outline digit = ⟨[.text digit ⟨0, 1⟩], none⟩ := by
    rw [outline, hmarkup, hscan]
    rfl
  have hgathers : e.Gathers 0 base (e.outline digit).tags (.start name) [.text digit ⟨0, 1⟩]
      (.start name) := by
    rw [houtline]
    exact .other (by simp) .nil
  rw [digitPage, ← hfolding]
  exact hgathers.compiles (by rw [houtline])

theorem outline_loopSource {e : Engine} (hmarkup : e.markup = .standard) :
    e.outline loopSource = ⟨[.inclusion "a" ⟨11, 14⟩ ⟨3, 14⟩], none⟩ := by
  have hscan : Token.scan .standard loopSource = loopTokens := by rfl
  rw [outline, hmarkup, hscan, outline_loop]

theorem start_not_knows {name key : String} (h : key ≠ name) :
    ¬ (Gathering.start (some name)).Knows key := by
  rintro (hk | hk)
  · cases hk
  · exact h (List.mem_singleton.mp hk)

theorem lone_reached : lone.Reached := .addTemplate (.fresh .standard none .stable) (compiles_digit rfl rfl rfl)

theorem stacked_reached : stacked.Reached := by
  have houtline := outline_loopSource (e := lone) rfl
  have hpath : Path.normal (Path.directory "b") "a" = "a" := by rfl
  have hgathers : lone.Gathers 0 (Path.directory "b") (lone.outline loopSource).tags
      (.start (some "b")) [.inclusion "a" ⟨11, 14⟩ ⟨3, 14⟩]
      ((Gathering.start (some "b")).addTemplate "a" ⟨digitPage "1", []⟩) := by
    rw [houtline]
    exact .registered hpath (start_not_knows (by decide)) rfl .nil
  exact .addTemplate lone_reached (hgathers.compiles (by rw [houtline]))

end Engine

end Stencil

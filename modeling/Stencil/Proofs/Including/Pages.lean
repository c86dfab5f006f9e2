import Mathlib
import Stencil.Proofs.Compiling.Tags
import Stencil.Proofs.Including.History
import Stencil.Proofs.Rendering.Steps
/-!
# The pages of a rendering

Every page that rendering a template can come to is sound, so its program is the code of its tree.
-/

namespace Stencil

theorem Page.Sound.code_eq {p : Page} (h : p.Sound) : p.code = (p.body.code p.folding 0).toArray := by
  rw [p.code_eq]
  exact Emitter.program_eq p.folding h.closed

namespace Engine

variable {e : Engine} {name : Option String} {t : Template} {key : String} {p : Page}

theorem page?_sound (he : e.Sound) (ht : t.Sound name) (h : e.page? name t key = some p) :
    p.Sound := by
  rcases Option.or_eq_some_iff.mp h with h | ⟨-, h⟩
  · exact ht.pages _ (Dict.mem_of_find? h)
  · rcases Option.or_eq_some_iff.mp h with h | ⟨-, h⟩
    · split at h
      · cases h
        exact ht.root
      · cases h
    · obtain ⟨t', ht', rfl⟩ := Option.map_eq_some_iff.mp h
      exact (he key t' ht').root

theorem ready_of_sound (h : p.Sound) : (e.renderer name t).Ready p.folding p :=
  ⟨h.code_eq, Body.ofTags_placed h.placed⟩

theorem Reached.root_ready (he : e.Reached) (ht : e.Offers name t) :
    (e.renderer name t).Ready t.page.folding t.page :=
  ready_of_sound (he.sound_of_offers ht).root

theorem Reached.pages_ready (he : e.Reached) (ht : e.Offers name t) (key : String) (p : Page)
    (h : (e.renderer name t).page? key = some p) : (e.renderer name t).Ready p.folding p :=
  ready_of_sound (page?_sound he.sound (he.sound_of_offers ht) h)

/-! ## A template that includes itself -/

def loopSource : String := "\x7b% include \"a\" %\x7d"

def loopTokens : List Token :=
  [⟨.opening .block, "\x7b%", ⟨0, 2⟩⟩, ⟨.word, "include", ⟨3, 10⟩⟩, ⟨.string, "\"a\"", ⟨11, 14⟩⟩,
    ⟨.closing .block, "%\x7d", ⟨15, 17⟩⟩]

def loopPage : Page := .of true loopSource [.inclusion "a" ⟨11, 14⟩ ⟨3, 14⟩]

def looping : Engine := { loader := none, templates := [("a", ⟨loopPage, []⟩)], maxDepth := 1 }

theorem outline_loop (g : Grammar) :
    g.outline loopTokens = ⟨[.inclusion "a" ⟨11, 14⟩ ⟨3, 14⟩], none⟩ := by
  have hword : Keyword.ofText? "include" = some .includeWord := by decide
  have hstring : Json.read? "\"a\"" = some (.string "a") := by rfl
  simp [loopTokens, Grammar.outline, Grammar.outlineFrom, Grammar.piece, Grammar.statementPiece,
    Grammar.statement, Grammar.head, Grammar.keyword?, hword, Grammar.keywordStatement,
    Grammar.stringLiteral, Grammar.expect, hstring, Span.join, Grammar.tagEnd, Outline.cons,
    Grammar.finish]

theorem looping_compiles :
    ({ loader := none } : Engine).Compiles (some "a") loopSource (Path.directory "a")
      ⟨loopPage, []⟩ := by
  have hscan : Token.scan .standard loopSource = loopTokens := by rfl
  have hbase : Path.directory "a" = "" := by rfl
  refine ⟨1, .start (some "a"), ?_, rfl⟩
  rw [hbase, page, compileWith, outline, hscan, outline_loop]
  rfl

theorem looping_reached : looping.Reached :=
  .limit 1 (.addTemplate (.fresh .standard none .stable) looping_compiles)

theorem looping_offers : looping.Offers (some "a") ⟨loopPage, []⟩ := .registered rfl

/-! ## A template with one of each -/

def medleySource : String :=
  "\x7b% for i in [1, 2] %\x7d\x7b% set a = i and 3 %\x7d" ++
    "\x7b\x7b default(b, not i) \x7d\x7d\x7b\x7b a or b \x7d\x7d\x7b% endfor %\x7d"

def medleyTokens : List Token :=
  [⟨.opening .block, "\x7b%", ⟨0, 2⟩⟩, ⟨.word, "for", ⟨3, 6⟩⟩, ⟨.word, "i", ⟨7, 8⟩⟩,
    ⟨.word, "in", ⟨9, 11⟩⟩, ⟨.leftBracket, "[", ⟨12, 13⟩⟩, ⟨.number, "1", ⟨13, 14⟩⟩,
    ⟨.comma, ",", ⟨14, 15⟩⟩, ⟨.number, "2", ⟨16, 17⟩⟩, ⟨.rightBracket, "]", ⟨17, 18⟩⟩,
    ⟨.closing .block, "%\x7d", ⟨19, 21⟩⟩, ⟨.opening .block, "\x7b%", ⟨21, 23⟩⟩,
    ⟨.word, "set", ⟨24, 27⟩⟩, ⟨.word, "a", ⟨28, 29⟩⟩, ⟨.assign, "=", ⟨30, 31⟩⟩,
    ⟨.word, "i", ⟨32, 33⟩⟩, ⟨.word, "and", ⟨34, 37⟩⟩, ⟨.number, "3", ⟨38, 39⟩⟩,
    ⟨.closing .block, "%\x7d", ⟨40, 42⟩⟩, ⟨.opening .expr, "\x7b\x7b", ⟨42, 44⟩⟩,
    ⟨.word, "default", ⟨45, 52⟩⟩, ⟨.leftParen, "(", ⟨52, 53⟩⟩, ⟨.word, "b", ⟨53, 54⟩⟩,
    ⟨.comma, ",", ⟨54, 55⟩⟩, ⟨.word, "not", ⟨56, 59⟩⟩, ⟨.word, "i", ⟨60, 61⟩⟩,
    ⟨.rightParen, ")", ⟨61, 62⟩⟩, ⟨.closing .expr, "\x7d\x7d", ⟨63, 65⟩⟩,
    ⟨.opening .expr, "\x7b\x7b", ⟨65, 67⟩⟩, ⟨.word, "a", ⟨68, 69⟩⟩, ⟨.word, "or", ⟨70, 72⟩⟩,
    ⟨.word, "b", ⟨73, 74⟩⟩, ⟨.closing .expr, "\x7d\x7d", ⟨75, 77⟩⟩,
    ⟨.opening .block, "\x7b%", ⟨77, 79⟩⟩, ⟨.word, "endfor", ⟨80, 86⟩⟩,
    ⟨.closing .block, "%\x7d", ⟨87, 89⟩⟩]

def medleyTags : List Tag :=
  [.loop (.item ⟨"i", ⟨7, 8⟩⟩) ⟨.literal (.array [.ofNat 1, .ofNat 2]) ⟨12, 18⟩, ⟨12, 18⟩⟩,
    .set ["a"] (.both (.name ⟨"i", ⟨32, 33⟩⟩) (.literal (.ofNat 3) ⟨38, 39⟩) ⟨32, 39⟩) ⟨28, 39⟩,
    .output (.fallback (.name ⟨"b", ⟨53, 54⟩⟩) (.apply .not [.name ⟨"i", ⟨60, 61⟩⟩] ⟨56, 61⟩)
      ⟨45, 62⟩) ⟨42, 65⟩,
    .output (.either (.name ⟨"a", ⟨68, 69⟩⟩) (.name ⟨"b", ⟨73, 74⟩⟩) ⟨68, 74⟩) ⟨65, 77⟩,
    .endFor ⟨80, 86⟩]

def medleyPage (folding : Bool) : Page := .of folding medleySource medleyTags

def bare : Engine := { loader := none }

theorem outline_medley (hmarkup : e.markup = .standard) (hfunctions : e.functions = []) :
    e.outline medleySource = ⟨medleyTags, none⟩ := by
  have hscan : Token.scan .standard medleySource = medleyTokens := by rfl
  rw [outline, grammar, hmarkup, hfunctions, hscan]
  cbv

theorem compiles_medley (hmarkup : e.markup = .standard) (hfunctions : e.functions = []) :
    e.Compiles none medleySource "" ⟨medleyPage e.folding, []⟩ := by
  refine ⟨1, .start none, ?_, rfl⟩
  rw [page, compileWith, outline_medley hmarkup hfunctions]
  rfl

theorem bare_reached : bare.Reached := .fresh .standard none .stable

theorem bare_offers : bare.Offers none ⟨medleyPage true, []⟩ := .source (compiles_medley rfl rfl)

end Engine

end Stencil

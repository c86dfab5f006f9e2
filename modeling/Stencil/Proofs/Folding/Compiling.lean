import Stencil.Engine
import Stencil.Proofs.Dict
/-!
# Compiling does not look at programs

`unfolded` is a page with the program in which each operand has an instruction of its own. Compiling
passes pages on as they are, so without folding it comes to the same pages unfolded, or to the same
error.
-/

namespace Stencil

/-! ## Unfolding -/

def Page.unfolded (p : Page) : Page := .of false p.source p.tags

def Template.unfolded (t : Template) : Template := ⟨t.page.unfolded, t.includes.mapValues Page.unfolded⟩

def Gathering.unfolded (s : Gathering) : Gathering :=
  { s with includes := s.includes.mapValues Page.unfolded }

namespace Gathering

variable {s : Gathering} {key : String} {t : Template} {p : Page}

theorem unfolded_addTemplate :
    (s.addTemplate key t).unfolded = s.unfolded.addTemplate key t.unfolded := by
  simp only [addTemplate, unfolded, Template.unfolded, Dict.mapValues_insert,
    Dict.mapValues_mergeNew]

end Gathering

namespace Engine

def unfolded (e : Engine) : Engine :=
  { e with templates := e.templates.mapValues Template.unfolded, folding := false }

variable {e : Engine} {compile compile' : Compile} {source base name path : String} {s : Gathering}

theorem registered?_unfolded : e.unfolded.registered? name path =
    (e.registered? name path).map fun found => (found.1, found.2.unfolded) := by
  simp only [registered?, unfolded, Dict.find?_mapValues]
  cases e.templates.find? name <;> cases e.templates.find? path <;> rfl

/-- The second one compiles as the first one does, without folding. -/
def Compile.Unfolds (compile compile' : Compile) : Prop :=
  ∀ source base s, compile' source base s.unfolded =
    ((compile source base s).1.map Page.unfolded, (compile source base s).2.unfolded)

theorem load_unfolded (hc : compile.Unfolds compile') : e.unfolded.load compile' path s.unfolded =
    ((e.load compile path s).1, (e.load compile path s).2.unfolded) := by
  unfold load
  have hloader : e.unfolded.loader = e.loader := rfl
  rw [hloader]
  cases e.loader with
  | none => rfl
  | some loader =>
    dsimp only
    cases loader.answer path with
    | error fault => rfl
    | ok source =>
      have hpage := hc source (Path.directory path)
        { s.ask path with inProgress := path :: s.inProgress }
      simp only [Gathering.unfolded, Gathering.ask] at hpage ⊢
      rw [hpage]
      cases compile source (Path.directory path) _ with
      | mk result t =>
        cases result with
        | error err => rfl
        | ok p => simp [Except.map, Dict.mapValues_insert]

theorem resolve_unfolded (hc : compile.Unfolds compile') :
    e.unfolded.resolve compile' base name s.unfolded =
      ((e.resolve compile base name s).1, (e.resolve compile base name s).2.unfolded) := by
  unfold resolve
  have hknown : ∀ path, (s.unfolded.includes.has path || s.unfolded.inProgress.contains path) =
      (s.includes.has path || s.inProgress.contains path) := by
    intro path
    simp [Gathering.unfolded]
  dsimp only
  rw [hknown, registered?_unfolded]
  split
  · rfl
  · cases e.registered? name (Path.normal base name) with
    | some found => simp [Gathering.unfolded_addTemplate]
    | none => exact load_unfolded hc

theorem resolveAll_unfolded (hc : compile.Unfolds compile') (ts : List Tag) :
    e.unfolded.resolveAll compile' source base ts s.unfolded =
      ((e.resolveAll compile source base ts s).1, (e.resolveAll compile source base ts s).2.unfolded) := by
  induction ts generalizing s with
  | nil => rfl
  | cons t ts ih =>
    cases t with
    | inclusion name place span =>
      simp only [resolveAll]
      rw [resolve_unfolded hc]
      cases e.resolve compile base name s with
      | mk result s₁ =>
        cases result with
        | error err => rfl
        | ok key =>
          dsimp only
          rw [ih]
          cases e.resolveAll compile source base ts s₁ with
          | mk result s₂ => cases result <;> rfl
    | _ =>
      simp only [resolveAll]
      rw [ih]
      cases e.resolveAll compile source base ts s with
      | mk result s₁ => cases result <;> rfl

theorem compileWith_unfolded (hc : compile.Unfolds compile') :
    Compile.Unfolds (e.compileWith compile) (e.unfolded.compileWith compile') := by
  intro source base s
  have houtline : e.unfolded.outline source = e.outline source := rfl
  simp only [compileWith]
  rw [houtline, resolveAll_unfolded hc]
  cases e.resolveAll compile source base (e.outline source).tags s with
  | mk result s₁ =>
    cases result with
    | error err => rfl
    | ok tags =>
      dsimp only
      cases (e.outline source).fault <;> rfl

theorem page_unfolded (e : Engine) (n : Nat) : Compile.Unfolds (e.page n) (e.unfolded.page n) := by
  induction n with
  | zero => exact fun _ _ _ => rfl
  | succ n ih => exact compileWith_unfolded ih

theorem compileNamed_unfolded (e : Engine) (name : Option String) (source base : String) :
    e.unfolded.compileNamed name source base =
      ⟨(e.compileNamed name source base).result.map Template.unfolded,
        (e.compileNamed name source base).asked⟩ := by
  have hfuel : e.unfolded.fuel = e.fuel := rfl
  have hpage := e.page_unfolded e.fuel source base (.start name)
  have hstart : (Gathering.start name).unfolded = .start name := rfl
  rw [hstart] at hpage
  simp only [compileNamed]
  rw [hfuel, hpage]
  cases e.page e.fuel source base (.start name) with
  | mk result s => cases result <;> rfl

end Engine

end Stencil

import Stencil.Proofs.Including.Pages
import Stencil.Proofs.Safety.Page
import Stencil.Proofs.Safety.Panics
/-!
# Rendering is safe and ends

Whatever an engine has gone through and whatever its callbacks do, rendering one of its templates never
gets stuck, and comes to an end within the depth of includes that the engine allows. That end can be a
panic.
-/

namespace Stencil.Engine

variable {e : Engine} {name : Option String} {t : Template}

theorem start_ends (he : e.Reached) (ht : e.Offers name t) (data : Value) (out : Output) :
    (e.renderer name t).Ends data (.start name t.page out) :=
  Renderer.ends_page (he.pages_ready ht) e.maxDepth (he.root_ready ht) (Nat.zero_add _).symm nofun

/-- In every state that a rendering reaches, the instruction has all that it asks for, and all spans of
the program lie in the source of its own template. Behind a program no values and no loops are left. -/
theorem never_stuck (he : e.Reached) (ht : e.Offers name t) (data : Value) (out : Output) :
    (∀ s, (e.renderer name t).Reaches data (.start name t.page out) s →
      (e.renderer name t).Fit data s) ∧
    ∀ out', e.renderInto name t data out ≠ .stuck out' := by
  have hends := start_ends he ht data out
  exact ⟨fun s hs => (hends.reaches hs).fit, hends.finish.2⟩

def medleyRound (place : Nat) (stack : List Value) : Rendering :=
  (Rendering.start none (medleyPage true) (.memory "")).goTo place
    ⟨stack, ⟨[⟨[("i", .ofNat 1)], [[("i", .ofNat 2)]], 0, none⟩], []⟩, .memory ""⟩

theorem medley_never_stuck : bare.Reached ∧ bare.Offers none ⟨medleyPage true, []⟩ ∧
    (bare.renderer none ⟨medleyPage true, []⟩).Reaches .null
      (.start none (medleyPage true) (.memory "")) (medleyRound 2 [.ofNat 1]) ∧
    (bare.renderer none ⟨medleyPage true, []⟩).Fit .null (medleyRound 2 [.ofNat 1]) := by
  have hloop : (bare.renderer none ⟨medleyPage true, []⟩).Moves .null
      (.start none (medleyPage true) (.memory "")) (medleyRound 1 []) := ⟨[], by cbv⟩
  have hpush : (bare.renderer none ⟨medleyPage true, []⟩).Moves .null (medleyRound 1 [])
      (medleyRound 2 [.ofNat 1]) := ⟨[], by cbv⟩
  have hreaches := Renderer.Reaches.step (.step .refl hloop) hpush
  exact ⟨bare_reached, bare_offers, hreaches,
    (never_stuck bare_reached bare_offers .null (.memory "")).1 _ hreaches⟩

/-- A rendering ends however the callbacks behave from step to step. It ends in a panic only where it has
come to a builtin that is asked for too much. At no time are more includes nested than the engine
allows. -/
theorem rendering_ends (he : e.Reached) (ht : e.Offers name t) (data : Value) (out : Output) :
    (∀ functions : Nat → Registry, ∃ o,
      (e.renderer name t).Ending data functions (.start name t.page out) o ∧
      (∀ out', o ≠ .stuck out') ∧
      ∀ p out', o = .failed (.panic p) out' → ∃ s n,
        (e.renderer name t).Reaches data (.start name t.page out) s ∧
        ((e.renderer name t).withFunctions (functions n)).Overreaches data s p) ∧
    (e.renderer name t).Ending data (fun _ => e.functions) (.start name t.page out)
      (e.renderInto name t data out) ∧
    ∀ s, (e.renderer name t).Reaches data (.start name t.page out) s →
      s.callers.length ≤ e.maxDepth := by
  have hends := start_ends he ht data out
  refine ⟨fun functions => ?_, hends.finish.1, fun s hs => hs.depth_le (Nat.zero_le _)⟩
  obtain ⟨o, ho, hstuck⟩ := hends.ending functions
  exact ⟨o, ho, hstuck, fun p out' => ho.overreaches hends⟩

theorem medley_ends : bare.Reached ∧ bare.Offers none ⟨medleyPage true, []⟩ ∧
    ∃ o, (bare.renderer none ⟨medleyPage true, []⟩).Ending .null (fun _ => [])
      (.start none (medleyPage true) (.memory "")) o ∧ ∀ out, o ≠ .stuck out := by
  obtain ⟨o, ho, hstuck, -⟩ :=
    (rendering_ends bare_reached bare_offers .null (.memory "")).1 fun _ => []
  exact ⟨bare_reached, bare_offers, o, ho, hstuck⟩

/-! ## A template that panics -/

def hugeSource : String := "\x7b\x7b isArray(range(9223372036854775807)) \x7d\x7d"

def hugeTokens : List Token :=
  [⟨.opening .expr, "\x7b\x7b", ⟨0, 2⟩⟩, ⟨.word, "isArray", ⟨3, 10⟩⟩, ⟨.leftParen, "(", ⟨10, 11⟩⟩,
    ⟨.word, "range", ⟨11, 16⟩⟩, ⟨.leftParen, "(", ⟨16, 17⟩⟩,
    ⟨.number, "9223372036854775807", ⟨17, 36⟩⟩, ⟨.rightParen, ")", ⟨36, 37⟩⟩,
    ⟨.rightParen, ")", ⟨37, 38⟩⟩, ⟨.closing .expr, "\x7d\x7d", ⟨39, 41⟩⟩]

def hugePage : Page :=
  .of true hugeSource [.output (.apply (.test .array)
    [.apply .range [.literal (.ofNat 9223372036854775807) ⟨17, 36⟩] ⟨11, 37⟩] ⟨3, 38⟩) ⟨0, 41⟩]

theorem outline_huge : bare.outline hugeSource = ⟨hugePage.tags, none⟩ := by
  have hmarkup : bare.markup = .standard := rfl
  have hscan : Token.scan .standard hugeSource = hugeTokens := by rfl
  rw [outline, hmarkup, hscan]
  cbv

/-- There is no room for so many integers, and rendering ends neither with output nor with an error. -/
theorem huge_panics : (bare.compile hugeSource).result = .ok ⟨hugePage, []⟩ ∧
    bare.render none ⟨hugePage, []⟩ .null = .error (.panic .capacity) := by
  have hstep : (bare.renderer none ⟨hugePage, []⟩).step .null (.start none hugePage (.memory "")) =
      .ended (.failed (.panic .capacity) (.memory "")) := by rfl
  refine ⟨?_, ?_⟩
  · have hfuel : bare.fuel = 1 := rfl
    rw [compile, compileNamed, hfuel, page, compileWith, outline_huge]
    rfl
  · rw [render, renderInto, Renderer.run, Renderer.finish_eq, hstep]
    rfl

end Stencil.Engine

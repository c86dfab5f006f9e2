import Stencil.Proofs.Rendering.Halts
import Stencil.Proofs.Safety.Ends
/-!
# What a rendering panics at

Two builtins know values that they cannot deal with at all: `range` a number of integers that there is no
room for, and `sort` values that are in no order. Nothing else panics.
-/

namespace Stencil

/-! ## Builtins -/

def Calm (x : Except (Halt ε) α) : Prop := ∀ p, x ≠ .error (.panic p)

@[simp] theorem calm_ok (a : α) : Calm (.ok a : Except (Halt ε) α) := fun _ => nofun

@[simp] theorem calm_lift {x : Except ε α} : Calm (liftM x : Except (Halt ε) α) := by
  intro p h
  cases x <;> cases h

@[simp] theorem calm_bind {x : Except ε α} {f : α → Except (Halt ε) β} :
    Calm ((liftM x : Except (Halt ε) α) >>= f) ↔ ∀ a, x = .ok a → Calm (f a) := by
  cases x with
  | ok a => exact ⟨fun h _ ha => by cases ha; exact h, fun h => h a rfl⟩
  | error e => exact ⟨fun _ _ => nofun, fun _ _ => nofun⟩

theorem panic_of_bind {x : Except ε α} {f : α → Except (Halt ε) β} {p : Panic}
    (h : ((liftM x : Except (Halt ε) α) >>= f) = .error (.panic p)) :
    ∃ a, x = .ok a ∧ f a = .error (.panic p) := by
  cases x with
  | ok a => exact ⟨a, rfl, h⟩
  | error e => cases h

namespace Builtin

variable {sorting : Sorting} {args : Arguments} {f : Builtin} {p : Panic}

theorem apply_calm (hrange : f ≠ .range) (hsort : f ≠ .sort) : Calm (f.apply sorting args) := by
  cases f with
  | range => exact absurd rfl hrange
  | sort => exact absurd rfl hsort
  | _ => simp [apply]

theorem range_panics (h : Builtin.range.apply sorting args = .error (.panic p)) :
    ∃ n, args.integer 0 = .ok n ∧ capacity < n ∧ p = .capacity := by
  obtain ⟨n, hn, h⟩ := panic_of_bind h
  refine ⟨n, hn, ?_⟩
  unfold counted at h
  split at h
  · next hlt =>
    cases h
    exact ⟨hlt, rfl⟩
  · cases h

theorem sort_panics (h : Builtin.sort.apply sorting args = .error (.panic p)) :
    ∃ items, args.get 0 = .ok (.array items) ∧ ¬ Value.Ordered items ∧ p = .disorder := by
  obtain ⟨v, hv, h⟩ := panic_of_bind h
  obtain ⟨items, hitems, h⟩ := panic_of_bind h
  have harray : v = .array items := by
    cases v <;> cases hitems
    rfl
  refine ⟨items, harray ▸ hv, ?_⟩
  unfold sorted at h
  split at h
  · cases h
  · next hnone =>
    cases h
    refine ⟨fun hordered => ?_, rfl⟩
    rw [sorting.sort_ordered items hordered] at hnone
    cases hnone

end Builtin

/-! ## Renderings -/

namespace Renderer

/-- The next instruction asks for what a builtin panics at. -/
inductive Overreaches (r : Renderer) (data : Value) (s : Rendering) : Panic → Prop
  | range {args : Arguments} {n : Int} : r.Applies data s .range args → args.integer 0 = .ok n →
    Builtin.capacity < n → Overreaches r data s .capacity
  | sort {args : Arguments} {items : List Value} : r.Applies data s .sort args →
    args.get 0 = .ok (.array items) → ¬ Value.Ordered items → Overreaches r data s .disorder

variable {r : Renderer} {data : Value} {s : Rendering} {p : Panic} {out : Output}

theorem Stops.overreaches (h : r.Stops data s (.panic p) out) : r.Overreaches data s p := by
  cases h with
  | @panicked f args _ _ happlies hpanic =>
    by_cases hrange : f = .range
    · subst hrange
      obtain ⟨n, hn, hlt, rfl⟩ := Builtin.range_panics hpanic
      exact .range happlies hn hlt
    · by_cases hsort : f = .sort
      · subst hsort
        obtain ⟨items, hitems, hordered, rfl⟩ := Builtin.sort_panics hpanic
        exact .sort happlies hitems hordered
      · exact absurd hpanic (Builtin.apply_calm hrange hsort p)

/-- A rendering that ends in a panic has reached a state whose next instruction asks for too much. -/
theorem Ending.overreaches {functions : Nat → Registry} {o : Outcome Output}
    (h : r.Ending data functions s o) (hends : r.Ends data s) (ho : o = .failed (.panic p) out) :
    ∃ s' n, r.Reaches data s s' ∧ (r.withFunctions (functions n)).Overreaches data s' p := by
  induction h with
  | @ended functions s o hstep =>
    subst ho
    have hstops : (r.withFunctions (functions 0)).Stops data s (.panic p) out :=
      step_stops hends.fit.spans hstep
    exact ⟨s, 0, .refl, hstops.overreaches⟩
  | @going functions s s' o hstep _ ih =>
    have hmoves : r.Moves data s s' := ⟨functions 0, hstep⟩
    obtain ⟨s'', n, hreaches, hover⟩ := ih (hends.next hmoves) ho
    exact ⟨s'', n + 1, .head hmoves hreaches, hover⟩

end Renderer

end Stencil

import Stencil.Proofs.Writing.Engine
/-!
# A higher limit of includes

A rendering looks at the limit only where it enters a page. Under a higher limit it goes through the same
states, up to the first include that is too deep for the lower one.
-/

namespace Stencil

def Error.TooDeep (limit : Nat) (e : Error) : Prop := e.fault = .includeDepth limit

theorem Rendering.fault_sign (s : Rendering) (e : Error) : (s.sign e).fault = e.fault := by
  unfold sign
  generalize s.current :: s.callers = visits
  induction visits generalizing e with
  | nil => rfl
  | cons v visits ih =>
    rw [List.foldl_cons, ih]
    cases v.name <;> rfl

/-! ## Steps under two limits -/

namespace Renderer

def limited (r : Renderer) (n : Nat) : Renderer := { r with limit := n }

variable {r : Renderer} {data : Value} {s : Rendering} {m n : Nat}

theorem enter_limited (hmn : m ≤ n) (key : String) (span : Span) :
    (r.limited n).enter s key span = (r.limited m).enter s key span ∨
      ∃ err out, (r.limited m).enter s key span = .ended (.failed (.raised err) out) ∧ err.TooDeep m := by
  by_cases hdeep : m ≤ s.callers.length
  · exact .inr ⟨_, s.out, if_pos hdeep, s.fault_sign _⟩
  · have hdeep' : ¬ n ≤ s.callers.length := fun h => hdeep (Nat.le_trans hmn h)
    refine .inl ?_
    rw [enter, enter, limited, limited, if_neg hdeep, if_neg hdeep']

theorem step_limited (hmn : m ≤ n) :
    (r.limited n).step data s = (r.limited m).step data s ∨
      ∃ err out, (r.limited m).step data s = .ended (.failed (.raised err) out) ∧ err.TooDeep m := by
  have hcontext : (r.limited n).context = (r.limited m).context := rfl
  have hprogram : (r.limited n).program = (r.limited m).program := rfl
  unfold step
  rw [hcontext, hprogram]
  cases ((r.limited m).program s.current.page)[s.current.place]? with
  | none => exact .inl rfl
  | some i =>
    dsimp only
    cases Machine.exec ((r.limited m).context s.current.page (s.around data)) i s.machine with
    | done move =>
      cases move with
      | next _ => exact .inl rfl
      | jump _ _ => exact .inl rfl
      | insert key _ => exact enter_limited hmn key i.span
    | _ => exact .inl rfl

/-- A rendering that does not end at an include too deep for a limit ends alike under a higher one,
however the callbacks behave from step to step. -/
theorem Ending.limited {functions : Nat → Registry} {o : Outcome Output}
    (h : (r.limited m).Ending data functions s o) (hmn : m ≤ n)
    (ho : ∀ err out, o = .failed (.raised err) out → ¬ err.TooDeep m) :
    (r.limited n).Ending data functions s o := by
  induction h with
  | @ended functions s o hstep =>
    rcases step_limited (r := r.withFunctions (functions 0)) hmn with hsame | ⟨err, out, hfails, hdeep⟩
    · exact .ended (hsame.trans hstep)
    · cases hfails.symm.trans hstep
      exact absurd hdeep (ho err out rfl)
  | @going functions s s' o hstep _ ih =>
    rcases step_limited (r := r.withFunctions (functions 0)) hmn with hsame | ⟨err, out, hfails, -⟩
    · exact .going (hsame.trans hstep) (ih ho)
    · cases hfails.symm.trans hstep

end Renderer

/-! ## Engines -/

namespace Engine

def withDepth (e : Engine) (n : Nat) : Engine := { e with maxDepth := n }

variable {e : Engine} {name : Option String} {t : Template} {m n : Nat}

theorem renderInto_withDepth (he : e.Reached) (ht : e.Offers name t) (hmn : m ≤ n) (data : Value)
    (out : Output) (h : ∀ err out',
      (e.withDepth m).renderInto name t data out = .failed (.raised err) out' → ¬ err.TooDeep m) :
    (e.withDepth n).renderInto name t data out = (e.withDepth m).renderInto name t data out := by
  have hready : ∀ key p, ((e.renderer name t).limited m).page? key = some p →
      ((e.renderer name t).limited m).Ready p.folding p :=
    fun key p hp => ⟨(he.pages_ready ht key p hp).program, (he.pages_ready ht key p hp).placed⟩
  have hroot : ((e.renderer name t).limited m).Ready t.page.folding t.page :=
    ⟨(he.root_ready ht).program, (he.root_ready ht).placed⟩
  have hends : ((e.renderer name t).limited m).Ends data (.start name t.page out) :=
    Renderer.ends_page hready m hroot (Nat.zero_add _).symm nofun
  exact (hends.finish.1.limited hmn h).finish fun _ => rfl

/-- The error of a sink that refuses something does not hide an include that is too deep: what an error
of the machine hides is not there yet. -/
theorem shallow_of_renderTo {text : String} {verdict : Verdict Unit} {data : Value} {k : Sink}
    (hwrites : Writes (fun _ : Unit => id) text verdict (e.renderInto name t data))
    (h : ∀ err, (e.renderTo name t data k).2 = .error (.raised err) → ¬ err.TooDeep m)
    (err : Error) (out : Output)
    (hfails : e.renderInto name t data (.sink k none) = .failed (.raised err) out) :
    ¬ err.TooDeep m := by
  rcases hk : (Output.sink k none).write text with ⟨_ | _, out'⟩
  · obtain ⟨template, hrefused⟩ := hwrites.refused _ _ hk
    cases hrefused.symm.trans hfails
    exact nofun
  · have hnone : out'.failure? = none := by
      rw [Output.write] at hk
      split at hk <;> cases hk
      rfl
    have hout : out = out' := by
      have hclose := hwrites.taken _ _ hk
      cases verdict <;> cases hclose.symm.trans hfails
      rfl
    refine h err ?_
    rw [renderTo, hfails, hout]
    simp only [Halt.map, ofSink, hnone]

/-- Where rendering under a limit does not fail at an include that is too deep, a higher limit makes no
difference to what is written and to how it ends. -/
theorem renderTo_withDepth (he : e.Reached) (ht : e.Offers name t) (hmn : m ≤ n) (data : Value) :
    (∀ k, (∀ err, ((e.withDepth m).renderTo name t data k).2 = .error (.raised err) → ¬ err.TooDeep m) →
      (e.withDepth n).renderTo name t data k = (e.withDepth m).renderTo name t data k) ∧
    ((∀ err, (e.withDepth m).render name t data = .error (.raised err) → ¬ err.TooDeep m) →
      (e.withDepth n).render name t data = (e.withDepth m).render name t data) := by
  have hreached : (e.withDepth m).Reached := .limit m he
  obtain ⟨text, verdict, hwrites⟩ := renderInto_steady hreached.sound (he.sound_of_offers ht) data
  refine ⟨fun k h => ?_, fun h => ?_⟩
  · have hinto := renderInto_withDepth he ht hmn data (.sink k none) (shallow_of_renderTo hwrites h)
    rw [renderTo, renderTo, hinto]
  · have hinto := renderInto_withDepth he ht hmn data (.memory "") fun err out hfails =>
      h err (by rw [render, hfails])
    rw [render, render, hinto]

/-- One include may be active while "b" is rendered, so that two may be makes no difference. -/
theorem stacked_withDepth : stacked.Reached ∧
    stacked.Offers (some "b") ⟨loopPage, [("a", digitPage "1")]⟩ ∧
    (stacked.withDepth 1).render (some "b") ⟨loopPage, [("a", digitPage "1")]⟩ .null = .ok "1" ∧
    (stacked.withDepth 2).render (some "b") ⟨loopPage, [("a", digitPage "1")]⟩ .null = .ok "1" := by
  have hoffers : stacked.Offers (some "b") ⟨loopPage, [("a", digitPage "1")]⟩ := .registered rfl
  have hone : (stacked.withDepth 1).render (some "b") ⟨loopPage, [("a", digitPage "1")]⟩ .null =
      .ok "1" := by
    have hreached : (stacked.withDepth 1).Reached := .limit 1 stacked_reached
    exact render_of_eval hreached (.registered rfl) rfl
  have htwo := (renderTo_withDepth stacked_reached hoffers (by decide : 1 ≤ 2) .null).2 fun err herr =>
    nomatch hone.symm.trans herr
  exact ⟨stacked_reached, hoffers, hone, htwo.trans hone⟩

end Engine

end Stencil

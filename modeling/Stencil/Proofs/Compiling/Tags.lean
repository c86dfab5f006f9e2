import Stencil.Proofs.Compiling.Blocks
import Stencil.Proofs.Compiling.Expr
/-!
# The code of closed tags as it is emitted

Going through the tags once, with jumps that get their targets later, comes to the code that the tree
of the tags has in the end.
-/

namespace Stencil

open Body

/-! ## Edges -/

namespace Body

variable (folding : Bool) (here : Nat)

def Edge.code : Edge → Code
  | .otherwise span no =>
    let a := no.code folding (here + 1)
    .plain (.jump (here + 1 + a.length)) span :: a
  | _ => []

def Edge.entry : Edge → Nat
  | .otherwise _ _ => here + 1
  | _ => here

theorem Edge.code_otherwise (span : Span) (no : Body) :
    (Edge.otherwise span no).code folding here =
      .plain (.jump (here + 1 + (no.code folding (here + 1)).length)) span ::
        no.code folding (here + 1) := rfl

theorem Edge.entry_otherwise (span : Span) (no : Body) :
    (Edge.otherwise span no).entry here = here + 1 := rfl

theorem code_conditional (test : Part) (yes : Body) (edge : Edge) (rest : Body) :
    (conditional test yes edge rest).code folding here =
      let a := test.expr.code folding here
      let b := yes.code folding (here + a.length + 1)
      let stop := here + a.length + 1 + b.length
      let c := edge.code folding stop
      a ++ .plain (.jumpUnless (edge.entry stop)) test.span :: b ++ c ++
        rest.code folding (stop + c.length) := by
  cases edge with
  | otherwise span no =>
    simp only [conditional, Body.code, Edge.code, Edge.entry, List.length_cons]
    simp [Nat.add_assoc, Nat.add_comm, Nat.add_left_comm]
  | _ => simp [conditional, Body.code, Edge.code, Edge.entry]

end Body

namespace Emitter

variable {c d e : Emitter} {a b : Code}

/-! ## Jumps that wait for their targets -/

def aim (target : Nat) (l : Code) (jumps : List Nat) : Code :=
  jumps.foldl (fun l j => l.modify j (·.mapTarget fun _ => target)) l

theorem length_aim (t : Nat) (l : Code) (js : List Nat) : (aim t l js).length = l.length := by
  induction js generalizing l with
  | nil => rfl
  | cons j js ih => rw [aim, List.foldl_cons, ← aim, ih, List.length_modify]

theorem aim_append (t : Nat) (l l' : Code) (js : List Nat) (h : ∀ j ∈ js, j < l.length) :
    aim t (l ++ l') js = aim t l js ++ l' := by
  induction js generalizing l with
  | nil => rfl
  | cons j js ih =>
    rw [aim, List.foldl_cons, modify_append _ _ _ _ (h j List.mem_cons_self), ← aim, ih]
    · rfl
    · intro k hk
      rw [List.length_modify]
      exact h k (List.mem_cons_of_mem _ hk)

theorem aim_concat (t : Nat) {l : Code} {n : Nat} (hn : l.length = n) (i : Instr) (l' : Code)
    {js : List Nat} (h : ∀ j ∈ js, j < n) :
    aim t (l ++ i :: l') (js ++ [n]) = aim t l js ++ (i.mapTarget fun _ => t) :: l' := by
  subst hn
  have hconcat : aim t (l ++ i :: l') (js ++ [l.length]) =
      (aim t (l ++ i :: l') js).modify l.length (·.mapTarget fun _ => t) := by
    simp [aim, List.foldl_append]
  rw [hconcat, aim_append t l _ js h, ← length_aim t l js]
  exact modify_middle _ _ _ _

theorem aim_one (t : Nat) {l : Code} {n : Nat} (hn : l.length = n) (i : Instr) (l' : Code) :
    aim t (l ++ i :: l') [n] = l ++ (i.mapTarget fun _ => t) :: l' := by
  subst hn
  exact modify_middle _ _ _ _

theorem foldl_land (js : List Nat) (hc : c.Sound) :
    (js.foldl land c).folding = c.folding ∧ (js.foldl land c).here = c.here ∧
      (js.foldl land c).Sound ∧ (js.foldl land c).code.toList = aim c.here c.code.toList js := by
  induction js generalizing c with
  | nil => exact ⟨rfl, rfl, hc, rfl⟩
  | cons j js ih =>
    obtain ⟨hf, hh, hs, hcode⟩ := ih (land_sound hc j)
    rw [here_land] at hh hcode
    refine ⟨hf, hh, hs, hcode.trans ?_⟩
    simp [land, aim]

/-! ## Tags -/

variable {opened opened' : List Pending}

theorem tags_append {ts : List Tag} (h : (c.tags opened ts).2 = opened') (us : List Tag) :
    c.tags opened (ts ++ us) = (c.tags opened ts).1.tags opened' us := by
  subst h
  simp [tags, List.foldl_append]

theorem tags_cons {t : Tag} (h : c.tag opened t = (d, opened')) (ts : List Tag) :
    c.tags opened (t :: ts) = d.tags opened' ts := by
  have hcons : c.tags opened (t :: ts) = (c.tag opened t).1.tags (c.tag opened t).2 ts := rfl
  rw [hcons, h]

/-- That the end of a conditional has been emitted: the jumps into it and behind it have got their
targets. -/
structure Ended (c d : Emitter) (test : Nat) (ends : List Nat) (edge : Edge) : Prop where
  folding : d.folding = c.folding
  code : d.code.toList =
    aim d.here (aim (edge.entry c.here) c.code.toList [test]) ends ++ edge.code c.folding c.here
  sound : d.Sound

theorem Ended.here {test : Nat} {ends : List Nat} {edge : Edge} (h : Ended c d test ends edge) :
    d.here = c.here + (edge.code c.folding c.here).length := by
  rw [here_eq d, h.code, List.length_append, length_aim, length_aim, ← here_eq]

theorem Ended.adds {i : Instr} {edge : Edge} (h : c.Adds d (a ++ i :: b))
    (he : Ended d e (c.here + a.length) [] edge) :
    c.Adds e (a ++ (i.mapTarget fun _ => edge.entry d.here) :: b ++ edge.code d.folding d.here) := by
  refine ⟨he.folding.trans h.folding, ?_, he.sound⟩
  rw [he.code, h.code, here_eq c, ← List.length_append, ← List.append_assoc]
  rw [aim_one _ rfl]
  simp [aim]

theorem branch_adds (hc : c.Sound) (test : Part) (ends : List Nat) :
    c.Adds (c.branch test ends).1
      (test.expr.code c.folding c.here ++ [.plain (.jumpUnless Op.unset) test.span]) ∧
    (c.branch test ends).2 =
      .cond (some (c.here + (test.expr.code c.folding c.here).length)) ends := by
  have htest := expr_adds test.expr c hc
  refine ⟨htest.push (.jumpUnless Op.unset)
    (fun place => congrArg _ (lower_of_le (Nat.zero_le place))) test.span, ?_⟩
  rw [← htest.here]
  rfl

theorem leaveBranch_code (hc : c.Sound) (test : Nat) (ht : test < c.here) (span : Span) :
    (c.leaveBranch (some test) span).folding = c.folding ∧
      (c.leaveBranch (some test) span).here = c.here + 1 ∧
      (c.leaveBranch (some test) span).Sound ∧
      (c.leaveBranch (some test) span).code.toList =
        aim (c.here + 1) c.code.toList [test] ++ [.plain (.jump Op.unset) span] := by
  have hpush := push_adds hc (i := .plain (.jump Op.unset) span)
    (fun place _ => congrArg (fun t => Instr.plain (.jump t) span) (lower_of_le (Nat.zero_le place)))
  obtain ⟨hf, hh, hs, hcode⟩ := foldl_land [test] hpush.sound
  refine ⟨hf, hh.trans hpush.here, hs, hcode.trans ?_⟩
  rw [hpush.code, hpush.here, aim_append _ _ _ _ (by simpa [Emitter.here] using ht)]
  rfl

/-- That some tags have been emitted in their place. -/
structure Emits (c : Emitter) (opened : List Pending) (ts : List Tag) (code : Code) : Prop where
  same : (c.tags opened ts).2 = opened
  adds : c.Adds (c.tags opened ts).1 code

theorem Emits.cons {t : Tag} {ts : List Tag} (ht : c.tag opened t = (d, opened)) (hd : c.Adds d a)
    (hts : Emits d opened ts b) : Emits c opened (t :: ts) (a ++ b) := by
  refine ⟨?_, ?_⟩
  · rw [tags_cons ht]
    exact hts.same
  · rw [tags_cons ht]
    exact hd.trans hts.adds

def EmitsBody (ts : List Tag) (b : Body) : Prop :=
  ∀ (c : Emitter) (opened : List Pending), c.Sound → Emits c opened ts (b.code c.folding c.here)

def EmitsEnd (ts : List Tag) (edge : Edge) : Prop :=
  ∀ (c : Emitter) (test : Nat) (ends : List Nat) (opened : List Pending), c.Sound →
    test < c.here → (∀ j ∈ ends, j < c.here) →
      (c.tags (.cond (some test) ends :: opened) ts).2 = opened ∧
        Ended c (c.tags (.cond (some test) ends :: opened) ts).1 test ends edge

section

variable {us vs ts : List Tag} {yes no body b : Body} {edge : Edge} {span : Span}

theorem EmitsBody.behind {i : Instr} (hus : EmitsBody us body) (h : c.Adds d (a ++ [i]))
    (opened : List Pending) :
    (d.tags opened us).2 = opened ∧
      c.Adds (d.tags opened us).1 (a ++ i :: body.code c.folding (c.here + a.length + 1)) ∧
      (d.tags opened us).1.here =
        c.here + a.length + 1 + (body.code c.folding (c.here + a.length + 1)).length := by
  have hbody := hus d opened h.sound
  have hall := h.trans hbody.adds
  rw [h.folding, h.here, List.length_append, List.length_singleton, ← Nat.add_assoc,
    List.append_assoc, List.singleton_append] at hall
  exact ⟨hbody.same, hall, hall.here.trans (Code.place_cons ..)⟩

theorem emits_cond {test : Part} (hus : EmitsBody us yes) (hvs : EmitsEnd vs edge)
    (hts : EmitsBody ts b) :
    EmitsBody (.cond test :: (us ++ (vs ++ ts))) (conditional test yes edge b) := by
  intro c opened hc
  obtain ⟨hbranch, hblock⟩ := branch_adds hc test []
  have htag : c.tag opened (.cond test) =
    ((c.branch test []).1, (c.branch test []).2 :: opened) := rfl
  rw [hblock] at htag
  generalize (c.branch test []).1 = d at hbranch htag
  obtain ⟨hsame, hfront, hstop⟩ := hus.behind hbranch
    (.cond (some (c.here + (test.expr.code c.folding c.here).length)) [] :: opened)
  have hend := hvs _ (c.here + (test.expr.code c.folding c.here).length) [] opened
    hfront.sound (by rw [hstop]; omega) nofun
  have hcond := Ended.adds hfront hend.2
  rw [hfront.folding, hstop, Instr.mapTarget_plain] at hcond
  have hrest := hts _ opened hcond.sound
  rw [hcond.folding, hcond.here, Code.place_append] at hrest
  have htags : c.tags opened (.cond test :: (us ++ (vs ++ ts))) = _ := tags_cons htag _
  rw [tags_append hsame, tags_append hend.1] at htags
  rw [code_conditional]
  refine ⟨by rw [htags]; exact hrest.same, ?_⟩
  rw [htags]
  exact hcond.trans hrest.adds

theorem emits_loop {binder : Binder Word} {source : Part} (hus : EmitsBody us body)
    (hts : EmitsBody ts b) :
    EmitsBody (.loop binder source :: (us ++ .endFor span :: ts))
      (.loop binder source body span b) := by
  intro c opened hc
  have hstart := pushTaking_adds hc (expr_adds source.expr c hc)
    (.loopStart (binder.map (·.span)) Op.unset)
    (fun place => congrArg _ (lower_of_le (Nat.zero_le place))) 0 source.span
  have htag : c.tag opened (.loop binder source) = (_, .loop (_ - 1) :: opened) := rfl
  rw [hstart.here, List.length_append, List.length_singleton, ← Nat.add_assoc,
    Nat.add_sub_cancel] at htag
  obtain ⟨hsame, hfront, hplace⟩ := hus.behind hstart
    (.loop (c.here + (source.expr.feed c.folding c.here).1.length) :: opened)
  have hnext := hfront.trans (push_adds hfront.sound
    (i := .plain (.loopNext (c.here + (source.expr.feed c.folding c.here).1.length + 1)) span)
    fun place hp => congrArg (fun t => Instr.plain (.loopNext t) span) (lower_of_le (by omega)))
  rw [List.append_assoc, List.cons_append] at hnext
  have hstop := hnext.here
  rw [Code.place_cons, List.length_append, List.length_singleton, ← Nat.add_assoc] at hstop
  have hloop := hnext.land
  rw [hstop, Instr.mapTarget, Op.mapTarget] at hloop
  have hrest := hts _ opened hloop.sound
  rw [hloop.folding, hloop.here, Code.place_cons, List.length_append, List.length_singleton,
    ← Nat.add_assoc] at hrest
  have htags : c.tags opened (.loop binder source :: (us ++ .endFor span :: ts)) = _ :=
    tags_cons htag _
  rw [tags_append hsame, tags_cons (t := .endFor span) rfl] at htags
  refine ⟨by rw [htags]; exact hrest.same, ?_⟩
  rw [htags, code_loop]
  have hall := hloop.trans hrest.adds
  rw [List.append_assoc, List.cons_append, List.append_assoc, List.singleton_append] at hall
  rw [List.append_assoc, List.cons_append]
  exact hall

theorem emits_endIf : EmitsEnd [.endIf] .endIf := by
  intro c test ends opened hc ht he
  obtain ⟨hf, hh, hs, hcode⟩ := foldl_land ([test] ++ ends) hc
  refine ⟨rfl, hf, hcode.trans ?_, hs⟩
  have haim : ∀ n, aim n c.code.toList ([test] ++ ends) = aim n (aim n c.code.toList [test]) ends := by
    intro n
    simp [aim]
  have htags : (c.tags (.cond (some test) ends :: opened) [.endIf]).1 =
    ([test] ++ ends).foldl land c := rfl
  rw [haim, htags, hh]
  exact (List.append_nil _).symm

theorem emits_otherwise (hus : EmitsBody us no) :
    EmitsEnd (.otherwise span :: (us ++ [.endIf])) (.otherwise span no) := by
  intro c test ends opened hc ht he
  obtain ⟨hf, hh, hs, hcode⟩ := leaveBranch_code hc test ht span
  have htag : c.tag (.cond (some test) ends :: opened) (.otherwise span) =
    (_, .cond none (ends ++ [c.here]) :: opened) := rfl
  generalize c.leaveBranch (some test) span = d at hf hh hs hcode htag
  have hno := hus d (.cond none (ends ++ [c.here]) :: opened) hs
  have hstop := hno.adds.here
  obtain ⟨hf', hh', hs', hcode'⟩ := foldl_land (ends ++ [c.here]) hno.adds.sound
  have htags : c.tags (.cond (some test) ends :: opened) (.otherwise span :: (us ++ [.endIf])) =
      ((ends ++ [c.here]).foldl land (d.tags (.cond none (ends ++ [c.here]) :: opened) us).1,
        opened) := by
    rw [tags_cons htag, tags_append hno.same]
    rfl
  rw [htags]
  refine ⟨rfl, ?_⟩
  refine ⟨hf'.trans (hno.adds.folding.trans hf), hcode'.trans ?_, hs'⟩
  rw [hno.adds.code, hcode, List.append_assoc, List.singleton_append,
    aim_concat _ ((length_aim _ _ _).trans (here_eq c).symm) _ _ he, hh', hstop, hf, hh]
  rfl

theorem emits_otherwiseIf {part : Part} (hus : EmitsBody us yes) (hvs : EmitsEnd vs edge) :
    EmitsEnd (.otherwiseIf span part :: (us ++ vs))
      (.otherwise span (conditional part yes edge .done)) := by
  intro c test ends opened hc ht he
  obtain ⟨hf, hh, hs, hcode⟩ := leaveBranch_code hc test ht span
  have htag : c.tag (.cond (some test) ends :: opened) (.otherwiseIf span part) =
    (((c.leaveBranch (some test) span).branch part (ends ++ [c.here])).1,
      ((c.leaveBranch (some test) span).branch part (ends ++ [c.here])).2 :: opened) := rfl
  generalize c.leaveBranch (some test) span = d at hf hh hs hcode htag
  obtain ⟨hbranch, hblock⟩ := branch_adds hs part (ends ++ [c.here])
  rw [hf, hh] at hbranch hblock
  rw [hblock] at htag
  generalize (d.branch part (ends ++ [c.here])).1 = e at hbranch htag
  obtain ⟨hsame, hfront, hplace⟩ := hus.behind hbranch
    (.cond (some (c.here + 1 + (part.expr.code c.folding (c.here + 1)).length))
      (ends ++ [c.here]) :: opened)
  rw [hf, hh] at hfront hplace
  have htags : c.tags (.cond (some test) ends :: opened) (.otherwiseIf span part :: (us ++ vs)) =
      _ := tags_cons htag _
  rw [tags_append hsame] at htags
  have hends : ∀ j ∈ ends ++ [c.here], j < c.here + 1 := by
    intro j hj
    rcases List.mem_append.mp hj with hj | hj
    · exact Nat.lt_succ_of_lt (he j hj)
    · rw [List.mem_singleton.mp hj]
      exact Nat.lt_succ_self _
  generalize (e.tags _ us).1 = f at hfront hplace htags
  obtain ⟨hclosed, hend⟩ := hvs f (c.here + 1 + (part.expr.code c.folding (c.here + 1)).length)
    (ends ++ [c.here]) opened hfront.sound (by omega)
    (fun j hj => Nat.lt_of_lt_of_le (hends j hj) (by omega))
  have hstop := hend.here
  rw [hplace, hfront.folding, hf] at hstop
  rw [htags]
  refine ⟨hclosed, hend.folding.trans (hfront.folding.trans hf), hend.code.trans ?_, hend.sound⟩
  have hlength : (aim (c.here + 1) c.code.toList [test]).length = c.here :=
    (length_aim _ _ _).trans (here_eq c).symm
  have htest : (aim (c.here + 1) c.code.toList [test] ++ [Instr.plain (.jump Op.unset) span] ++
      part.expr.code c.folding (c.here + 1)).length =
      c.here + 1 + (part.expr.code c.folding (c.here + 1)).length := by
    rw [List.length_append, List.length_append, hlength]
    rfl
  rw [hfront.code, hcode, ← List.append_assoc, aim_one _ htest]
  simp only [List.append_assoc, List.cons_append]
  rw [aim_concat _ hlength _ _ he, hplace, hstop, hfront.folding, hf]
  rw [Edge.code_otherwise, Edge.entry_otherwise, code_conditional]
  simp only [Body.code, List.append_nil]
  rw [Code.place_append]
  simp only [Instr.mapTarget_plain, Op.mapTarget, List.append_assoc, List.cons_append,
    List.nil_append]

end

mutual

theorem derives_emits : ∀ {ts : List Tag} {b : Body}, Derives ts b → EmitsBody ts b
  | _, _, .done => by
    intro c opened hc
    rw [Body.code]
    exact ⟨rfl, rfl, (List.append_nil _).symm, hc⟩
  | _, _, .text s span hts => by
    intro c opened hc
    have hd := push_adds hc (i := .plain (.text span) span) (fun _ _ => rfl)
    have h := derives_emits hts _ opened hd.sound
    rw [hd.folding, hd.here] at h
    rw [Body.code]
    exact .cons rfl hd h
  | _, _, .output e span hts => by
    intro c opened hc
    have hd := pushTaking_adds hc (expr_adds e c hc) .emit (fun _ => rfl) 0 span
    have h := derives_emits hts _ opened hd.sound
    rw [hd.folding, hd.here, List.length_append, List.length_singleton, ← Nat.add_assoc] at h
    rw [Body.code_output, List.append_cons]
    exact .cons rfl hd h
  | _, _, .inclusion key name span hts => by
    intro c opened hc
    have hd := push_adds hc (i := .plain (.inclusion key) span) (fun _ _ => rfl)
    have h := derives_emits hts _ opened hd.sound
    rw [hd.folding, hd.here] at h
    rw [Body.code]
    exact .cons rfl hd h
  | _, _, .set path e span hts => by
    intro c opened hc
    have hd := pushTaking_adds hc (expr_adds e c hc) (.set path) (fun _ => rfl) 0 span
    have h := derives_emits hts _ opened hd.sound
    rw [hd.folding, hd.here, List.length_append, List.length_singleton, ← Nat.add_assoc] at h
    rw [Body.code_set, List.append_cons]
    exact .cons rfl hd h
  | _, _, .cond test hus hvs hts =>
    emits_cond (derives_emits hus) (ends_emits hvs) (derives_emits hts)
  | _, _, .loop binder source span hus hts => emits_loop (derives_emits hus) (derives_emits hts)

theorem ends_emits : ∀ {ts : List Tag} {edge : Edge}, Ends ts edge → EmitsEnd ts edge
  | _, _, .endIf => emits_endIf
  | _, _, .otherwise span hus => emits_otherwise (derives_emits hus)
  | _, _, .otherwiseIf span test hus hvs => emits_otherwiseIf (derives_emits hus) (ends_emits hvs)

end

/-- The program of closed tags is the code of their tree. -/
theorem program_eq (folding : Bool) {ts : List Tag} (h : Opened.run? [] ts = some []) :
    program folding ts = ((Body.ofTags ts).code folding 0).toArray := by
  have hadds := (derives_emits (derives_ofTags h) (start folding) [] (start_sound folding)).adds
  have hcode := hadds.code
  rw [program, ← Array.toList_inj, hcode]
  rfl

end Emitter

end Stencil

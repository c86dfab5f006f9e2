import Stencil.Body
/-!
# Closed lists of tags

`Derives` is the grammar of tags whose blocks are all closed, with the tree of each. The tags that
`Opened.run?` accepts are those of the grammar, and `Body.ofTags` finds their tree.
-/

namespace Stencil

open Body

mutual

/-- The tags of a body. -/
inductive Derives : List Tag → Body → Prop
  | done : Derives [] .done
  | text (s : String) (span : Span) {ts : List Tag} {b : Body} :
    Derives ts b → Derives (.text s span :: ts) (.text s span b)
  | output (e : Expr) (span : Span) {ts : List Tag} {b : Body} :
    Derives ts b → Derives (.output e span :: ts) (.output e span b)
  | inclusion (key : String) (name span : Span) {ts : List Tag} {b : Body} :
    Derives ts b → Derives (.inclusion key name span :: ts) (.inclusion key span b)
  | set (path : List String) (e : Expr) (span : Span) {ts : List Tag} {b : Body} :
    Derives ts b → Derives (.set path e span :: ts) (.set path e span b)
  | cond (test : Part) {us vs ts : List Tag} {yes b : Body} {edge : Edge} :
    Derives us yes → Ends vs edge → Derives ts b →
      Derives (.cond test :: (us ++ (vs ++ ts))) (conditional test yes edge b)
  | loop (binder : Binder Word) (source : Part) (span : Span) {us ts : List Tag} {body b : Body} :
    Derives us body → Derives ts b →
      Derives (.loop binder source :: (us ++ .endFor span :: ts)) (.loop binder source body span b)

/-- The tags behind the first branch of a conditional, with its end. -/
inductive Ends : List Tag → Edge → Prop
  | endIf : Ends [.endIf] .endIf
  | otherwise (span : Span) {us : List Tag} {no : Body} :
    Derives us no → Ends (.otherwise span :: (us ++ [.endIf])) (.otherwise span no)
  | otherwiseIf (span : Span) (test : Part) {us vs : List Tag} {yes : Body} {edge : Edge} :
    Derives us yes → Ends vs edge →
      Ends (.otherwiseIf span test :: (us ++ vs)) (.otherwise span (conditional test yes edge .done))

end

/-- The tags from the end of a branch or the body of a loop to the end of the block. -/
inductive Closes : Open → List Tag → Edge → Prop
  | cond {vs : List Tag} {edge : Edge} : Ends vs edge → Closes (.cond false) vs edge
  | otherwise : Closes (.cond true) [.endIf] .endIf
  | loop (span : Span) : Closes .loop [.endFor span] (.endFor span)

/-- The tags that follow where some blocks are open, cut into the sections that they form. -/
inductive Continues : List Open → List Tag → List Section → Prop
  | last {ts : List Tag} {b : Body} : Derives ts b → Continues [] ts [⟨b, .ending⟩]
  | block {o : Open} {opened : List Open} {us vs ts : List Tag} {b : Body} {edge : Edge}
    {sections : List Section} : Derives us b → Closes o vs edge → Continues opened ts sections →
      Continues (o :: opened) (us ++ (vs ++ ts)) (⟨b, edge⟩ :: sections)

namespace Continues

variable {opened : List Open} {ts : List Tag} {sections : List Section}

theorem front (h : Continues opened ts sections) :
    ∃ b edge rest, sections = ⟨b, edge⟩ :: rest ∧
      ∀ vs b', (∀ us, Derives us b → Derives (vs ++ us) b') →
        Continues opened (vs ++ ts) (⟨b', edge⟩ :: rest) := by
  cases h with
  | last hd => exact ⟨_, _, _, rfl, fun vs b' h => .last (h _ hd)⟩
  | block hd hc hr =>
    refine ⟨_, _, _, rfl, fun vs b' h => ?_⟩
    rw [← List.append_assoc]
    exact .block (h _ hd) hc hr

theorem addTag {opened' : List Open} {t : Tag} (ht : Opened.step? opened t = some opened')
    (h : Continues opened' ts sections) : Continues opened (t :: ts) (Body.addTag t sections) := by
  cases t with
  | text s span =>
    cases ht
    obtain ⟨b, edge, rest, rfl, hb⟩ := h.front
    exact hb [.text s span] _ fun us hu => .text s span hu
  | output e span =>
    cases ht
    obtain ⟨b, edge, rest, rfl, hb⟩ := h.front
    exact hb [.output e span] _ fun us hu => .output e span hu
  | inclusion key name span =>
    cases ht
    obtain ⟨b, edge, rest, rfl, hb⟩ := h.front
    exact hb [.inclusion key name span] _ fun us hu => .inclusion key name span hu
  | set path e span =>
    cases ht
    obtain ⟨b, edge, rest, rfl, hb⟩ := h.front
    exact hb [.set path e span] _ fun us hu => .set path e span hu
  | cond test =>
    cases ht
    obtain _ | ⟨hd, ⟨he⟩, hr⟩ := h
    obtain ⟨b, edge, rest, rfl, hb⟩ := hr.front
    rw [← List.append_assoc, ← List.cons_append]
    refine hb _ _ fun us hu => ?_
    rw [List.cons_append, List.append_assoc]
    exact .cond test hd he hu
  | loop binder source =>
    cases ht
    obtain _ | ⟨hd, ⟨⟩, hr⟩ := h
    obtain ⟨b, edge, rest, rfl, hb⟩ := hr.front
    rw [← List.append_assoc, ← List.cons_append]
    refine hb _ _ fun us hu => ?_
    rw [List.cons_append, List.append_assoc]
    exact .loop binder source _ hd hu
  | otherwise span =>
    obtain _ | ⟨⟨_ | _⟩ | _, opened⟩ := opened <;> cases ht
    obtain _ | ⟨hd, ⟨⟩, hr⟩ := h
    rw [← List.append_assoc, ← List.cons_append]
    exact .block .done (.cond (.otherwise span hd)) hr
  | otherwiseIf span test =>
    obtain _ | ⟨⟨_ | _⟩ | _, opened⟩ := opened <;> cases ht
    obtain _ | ⟨hd, ⟨he⟩, hr⟩ := h
    rw [← List.append_assoc, ← List.cons_append]
    exact .block .done (.cond (.otherwiseIf span test hd he)) hr
  | endIf =>
    obtain _ | ⟨⟨_ | _⟩ | _, opened⟩ := opened <;> cases ht
    · exact .block .done (.cond .endIf) h
    · exact .block .done .otherwise h
  | endFor span =>
    obtain _ | ⟨⟨_ | _⟩ | _, opened⟩ := opened <;> cases ht
    exact .block .done (.loop span) h

theorem ofRun (h : Opened.run? opened ts = some []) :
    Continues opened ts (ts.foldr Body.addTag [⟨.done, .ending⟩]) := by
  induction ts generalizing opened with
  | nil =>
    obtain rfl : opened = [] := by simpa [Opened.run?] using h
    exact .last .done
  | cons t ts ih =>
    obtain ⟨opened', ht, hts⟩ := Option.bind_eq_some_iff.mp h
    exact addTag ht (ih hts)

end Continues

theorem derives_ofTags {ts : List Tag} (h : Opened.run? [] ts = some []) :
    Derives ts (Body.ofTags ts) := by
  have hts := Continues.ofRun h
  unfold Body.ofTags
  generalize ts.foldr addTag [⟨.done, .ending⟩] = sections at hts ⊢
  cases hts with
  | last hd => exact hd

end Stencil

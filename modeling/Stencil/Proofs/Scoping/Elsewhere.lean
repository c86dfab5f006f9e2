import Stencil.Proofs.Scoping.Assignment
/-!
# Reading elsewhere after an assignment

An assignment leaves every path alone that neither begins its own path nor goes on from there. There is
one exception: an array on the way gives way to an object, and all of its items go with it.
-/

namespace Stencil

/-- Neither of two paths begins with the other. -/
structure Apart (p q : List String) : Prop where
  left : ¬ p <+: q
  right : ¬ q <+: p

/-- A first part of both paths stands for an array, where `find?` says what a path stands for. -/
def MeetArray (find? : List String → Option Value) (p q : List String) : Prop :=
  ∃ way items, way ≠ [] ∧ way <+: p ∧ way <+: q ∧ find? way = some (.array items)

namespace Apart

variable {a b : String} {p q : List String}

theorem of_cons (h : Apart (a :: p) (a :: q)) : Apart p q :=
  ⟨fun hp => h.left (List.cons_prefix_cons.mpr ⟨rfl, hp⟩),
    fun hq => h.right (List.cons_prefix_cons.mpr ⟨rfl, hq⟩)⟩

theorem ne_nil_left (h : Apart p q) : p ≠ [] := by
  rintro rfl
  exact h.left List.nil_prefix

theorem ne_nil_right (h : Apart p q) : q ≠ [] := by
  rintro rfl
  exact h.right List.nil_prefix

end Apart

namespace MeetArray

variable {find? : List String → Option Value} {a b : String} {p q : List String}

theorem not_of_ne (h : a ≠ b) : ¬ MeetArray find? (a :: p) (b :: q) := by
  rintro ⟨way, items, hne, hp, hq, -⟩
  obtain ⟨c, way, rfl⟩ := List.exists_cons_of_ne_nil hne
  exact h ((List.cons_prefix_cons.mp hp).1.symm.trans (List.cons_prefix_cons.mp hq).1)

theorem cons_iff : MeetArray find? (a :: p) (a :: q) ↔
    (∃ items, find? [a] = some (.array items)) ∨ MeetArray (fun way => find? (a :: way)) p q := by
  constructor
  · rintro ⟨way, items, hne, hp, hq, hfind⟩
    obtain ⟨a, way, rfl⟩ := List.exists_cons_of_ne_nil hne
    obtain ⟨rfl, hrest⟩ := List.cons_prefix_cons.mp hp
    by_cases hway : way = []
    · exact .inl ⟨items, hway ▸ hfind⟩
    · exact .inr ⟨way, items, hway, hrest, (List.cons_prefix_cons.mp hq).2, hfind⟩
  · rintro (⟨items, hfind⟩ | ⟨way, items, -, hp, hq, hfind⟩)
    · exact ⟨[a], items, List.cons_ne_nil _ _, List.cons_prefix_cons.mpr ⟨rfl, List.nil_prefix⟩,
        List.cons_prefix_cons.mpr ⟨rfl, List.nil_prefix⟩, hfind⟩
    · exact ⟨a :: way, items, List.cons_ne_nil _ _, List.cons_prefix_cons.mpr ⟨rfl, hp⟩,
        List.cons_prefix_cons.mpr ⟨rfl, hq⟩, hfind⟩

theorem congr {find?' : List String → Option Value}
    (h : ∀ way, way ≠ [] → way <+: q → find? way = find?' way) :
    MeetArray find? p q ↔ MeetArray find?' p q := by
  constructor
  · rintro ⟨way, items, hne, hp, hq, hfind⟩
    exact ⟨way, items, hne, hp, hq, h way hne hq ▸ hfind⟩
  · rintro ⟨way, items, hne, hp, hq, hfind⟩
    exact ⟨way, items, hne, hp, hq, (h way hne hq).trans hfind⟩

end MeetArray

/-! ## Nested objects -/

namespace Dict

def at? (d : Dict Value) (path : List String) : Option Value := (Value.object d).index? path

theorem at?_cons (d : Dict Value) (first : String) (rest : List String) :
    d.at? (first :: rest) = (d.find? first).bind (Value.index? rest) := rfl

theorem find?_assign_ne {a b : String} (hab : a ≠ b) (d : Dict Value) (p : List String) (v : Value) :
    (d.assign (a :: p) v).find? b = d.find? b := by
  cases p <;> rw [assign, find?_insert_ne (Ne.symm hab)]

/-- An assignment keeps what is elsewhere, but for the items of an array on its way. -/
theorem at?_assign (d : Dict Value) {p q : List String} (h : Apart p q) (v : Value) :
    (MeetArray d.at? p q → (d.assign p v).at? q = none) ∧
    (¬ MeetArray d.at? p q → (d.assign p v).at? q = d.at? q) := by
  induction p generalizing d q with
  | nil => exact absurd rfl h.ne_nil_left
  | cons a p ih =>
    obtain ⟨b, q, rfl⟩ := List.exists_cons_of_ne_nil h.ne_nil_right
    by_cases hab : a = b
    case neg =>
      refine ⟨fun hmeet => absurd hmeet (MeetArray.not_of_ne hab), fun _ => ?_⟩
      rw [at?_cons, at?_cons, find?_assign_ne hab]
    case pos =>
      subst hab
      have hrest := h.of_cons
      obtain ⟨a₂, p, rfl⟩ := List.exists_cons_of_ne_nil hrest.ne_nil_left
      obtain ⟨b₂, q, rfl⟩ := List.exists_cons_of_ne_nil hrest.ne_nil_right
      -- an object on the way keeps its fields, and anything else gives way to an empty one
      have hnew : at? (assign [] (a₂ :: p) v) (b₂ :: q) = none := by
        refine (ih [] hrest).2 ?_
        rintro ⟨way, items, hne, -, -, hfind⟩
        obtain ⟨c, way, rfl⟩ := List.exists_cons_of_ne_nil hne
        cases hfind
      have hafter (inner : Dict Value) :
          at? (d.insert a (.object (inner.assign (a₂ :: p) v))) (a :: b₂ :: q) =
            at? (inner.assign (a₂ :: p) v) (b₂ :: q) := by
        rw [at?_cons, find?_insert_self]
        rfl
      rw [MeetArray.cons_iff, assign, hafter]
      simp only [at?_cons]
      cases d.find? a with
      | none => exact ⟨fun _ => hnew, fun _ => hnew⟩
      | some w =>
        cases w with
        | object fields =>
          rw [or_iff_right (by simp [Value.index?])]
          exact ih fields hrest
        | array items => exact ⟨fun _ => hnew, fun hmeet => absurd (.inl ⟨items, rfl⟩) hmeet⟩
        | _ => exact ⟨fun _ => hnew, fun _ => hnew⟩

end Dict

/-! ## Layers -/

namespace Scope

theorem find?_cons (s : Scope) (first : String) (rest : List String) :
    s.find? (first :: rest) = (s.find? [first]).bind (Value.index? rest) := by
  simp only [find?]
  cases s.layers.findSome? (·.find? first) with
  | some v => rfl
  | none =>
    simp only [Value.index?]
    cases s.data.step? first <;> rfl

end Scope

namespace Layer

variable {l : Layer} {around : Scope} {first : String}

def within (l : Layer) (around : Scope) : Scope := ⟨l :: around.layers, around.data⟩

theorem find?_of_frame (h : ∃ f ∈ l.frames, f.find? first ≠ none) {k : Layer}
    (hk : k.frames = l.frames) (rest : List String) :
    (k.within around).find? (first :: rest) = (l.within around).find? (first :: rest) := by
  have hsome : (l.frames.findSome? (·.find? first)).isSome := by
    rw [List.findSome?_isSome_iff]
    obtain ⟨f, hf, hfirst⟩ := h
    exact ⟨f, hf, Option.isSome_iff_ne_none.mpr hfirst⟩
  obtain ⟨w, hw⟩ := Option.isSome_iff_exists.mp hsome
  have hfind (k : Layer) (hk : k.frames = l.frames) :
      (k.within around).find? (first :: rest) = w.index? rest := by
    rw [within, Scope.find?, List.findSome?_cons, find?, hk, hw]
    rfl
  rw [hfind k hk, hfind l rfl]

theorem find?_of_no_frame (h : ∀ f ∈ l.frames, f.find? first = none) (rest : List String) :
    (l.within around).find? (first :: rest) =
      if l.locals.has first then l.locals.at? (first :: rest) else around.find? (first :: rest) := by
  have hloops : l.frames.findSome? (·.find? first) = none := List.findSome?_eq_none_iff.mpr h
  rw [within, Scope.find?, List.findSome?_cons, find?, hloops, Option.none_or, Dict.at?_cons, Dict.has]
  cases l.locals.find? first <;> rfl

theorem has_assign (d : Dict Value) (first : String) (rest : List String) (v : Value) :
    (d.assign (first :: rest) v).has first := by
  cases rest <;> exact Dict.has_insert_self

theorem at?_seed (h : ∀ f ∈ l.frames, f.find? first = none) (rest : List String) :
    (l.seed around first).locals.at? (first :: rest) = (l.within around).find? (first :: rest) := by
  rw [find?_of_no_frame h]
  unfold seed
  split
  · rfl
  · next hlocals =>
    rw [Scope.find?_cons around first rest]
    cases around.find? [first] with
    | none => rw [Dict.at?_cons, Dict.find?_of_not_has hlocals]
    | some v => rw [Dict.at?_cons, Dict.find?_insert_self]

theorem find?_seed_ne {a b : String} (hab : a ≠ b) :
    (l.seed around a).locals.find? b = l.locals.find? b := by
  unfold seed
  split
  · rfl
  · split
    · exact Dict.find?_insert_ne (Ne.symm hab)
    · rfl

theorem find?_set_ne {a b : String} (hab : a ≠ b) (p : List String) (v : Value) :
    (l.set around (a :: p) v).locals.find? b = l.locals.find? b := by
  unfold set
  rw [Dict.find?_assign_ne hab]
  cases p with
  | nil => rfl
  | cons c p => exact find?_seed_ne hab

end Layer

namespace Scope

/-- When an assignment to `p` in a layer takes away what is at `q`: both lead to or into one array, and
no loop of the layer hides the variable that the array is in. -/
structure Loses (l : Layer) (around : Scope) (p q : List String) : Prop where
  visible : ∀ first ∈ p.head?, ∀ f ∈ l.frames, f.find? first = none
  array : MeetArray (l.within around).find? p q

/-- An assignment changes only what its path leads to, but for an array on its way: all of its items are
gone afterwards. -/
theorem find?_elsewhere (l : Layer) (around : Scope) {p q : List String} (h : Apart p q) (v : Value) :
    (Loses l around p q → ((l.set around p v).within around).find? q = none) ∧
    (¬ Loses l around p q →
      ((l.set around p v).within around).find? q = (l.within around).find? q) := by
  obtain ⟨a, p, rfl⟩ := List.exists_cons_of_ne_nil h.ne_nil_left
  obtain ⟨b, q, rfl⟩ := List.exists_cons_of_ne_nil h.ne_nil_right
  by_cases hframes : ∀ f ∈ l.frames, f.find? b = none
  case neg =>
    have hframe : ∃ f ∈ l.frames, f.find? b ≠ none := by simpa using hframes
    refine ⟨fun hloses => absurd ?_ hframes, fun _ => ?_⟩
    · by_cases hab : a = b
      · exact hab ▸ hloses.visible a rfl
      · exact absurd hloses.array (MeetArray.not_of_ne hab)
    · exact Layer.find?_of_frame hframe (l.frames_set around _ v) q
  case pos =>
    have hset : ∀ f ∈ (l.set around (a :: p) v).frames, f.find? b = none := by
      rwa [Layer.frames_set]
    by_cases hab : a = b
    case neg =>
      refine ⟨fun hloses => absurd hloses.array (MeetArray.not_of_ne hab), fun _ => ?_⟩
      rw [Layer.find?_of_no_frame hset, Layer.find?_of_no_frame hframes, Dict.has, Dict.has,
        Dict.at?_cons, Dict.at?_cons, Layer.find?_set_ne hab]
    case pos =>
      subst hab
      obtain ⟨a₂, p, rfl⟩ := List.exists_cons_of_ne_nil h.of_cons.ne_nil_left
      have hlocals : (l.set around (a :: a₂ :: p) v).locals =
          (l.seed around a).locals.assign (a :: a₂ :: p) v := rfl
      have hmeet : MeetArray (l.within around).find? (a :: a₂ :: p) (a :: q) ↔
          MeetArray (l.seed around a).locals.at? (a :: a₂ :: p) (a :: q) := by
        refine MeetArray.congr fun way hne hway => ?_
        obtain ⟨c, way, rfl⟩ := List.exists_cons_of_ne_nil hne
        obtain rfl := (List.cons_prefix_cons.mp hway).1
        exact (Layer.at?_seed hframes way).symm
      have hkeep := (l.seed around a).locals.at?_assign h v
      rw [Layer.find?_of_no_frame hset, if_pos (hlocals ▸ Layer.has_assign _ a _ v), hlocals,
        ← Layer.at?_seed hframes q]
      refine ⟨fun hloses => hkeep.1 (hmeet.mp hloses.array), fun hloses => hkeep.2 fun harray => ?_⟩
      refine hloses ⟨fun first hfirst => ?_, hmeet.mpr harray⟩
      cases hfirst
      exact hframes

theorem find?_elsewhere_user :
    Apart ["user", "name"] ["user", "age"] ∧
    ¬ Loses itemLayer userScope ["user", "name"] ["user", "age"] ∧
    ((itemLayer.set userScope ["user", "name"] (.string "Jane")).within userScope).find?
      ["user", "age"] = some (.ofNat 42) := by
  have hapart : Apart ["user", "name"] ["user", "age"] := ⟨by decide, by decide⟩
  have hkeeps : ¬ Loses itemLayer userScope ["user", "name"] ["user", "age"] := by
    rintro ⟨-, harray⟩
    rcases MeetArray.cons_iff.mp harray with ⟨items, hitems⟩ | hmeet
    · cases hitems
    · exact MeetArray.not_of_ne (by decide) hmeet
  exact ⟨hapart, hkeeps, (find?_elsewhere itemLayer userScope hapart _).2 hkeeps⟩

/-- The first of some numbers is gone after an assignment to a name in their place. -/
theorem find?_elsewhere_fails : ¬ ∀ (l : Layer) (around : Scope) (p q : List String) (v : Value),
    p ≠ [] → ¬ p <+: q → ¬ q <+: p →
      ((l.set around p v).within around).find? q = (l.within around).find? q := by
  intro h
  cases h .empty ⟨[], .object [("xs", .array [.ofNat 1])]⟩ ["xs", "size"] ["xs", "0"] (.ofNat 1)
    (by decide) (by decide) (by decide)

end Scope

end Stencil

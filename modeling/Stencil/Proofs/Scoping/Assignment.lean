import Stencil.Proofs.Dict
import Stencil.Scope
/-!
# Reading after an assignment

A path that has been assigned to stands for the value of the assignment, whatever stood in its way. It
does so in the layer itself and in the layers that are opened inside of it, until a loop or a layer in
between knows the first step of the path.
-/

namespace Stencil

/-! ## Nested objects -/

theorem Dict.find?_assign (d : Dict Value) (first : String) (rest : List String) (v : Value) :
    ((d.assign (first :: rest) v).find? first).bind (Value.index? rest) = some v := by
  induction rest generalizing d first with
  | nil =>
    rw [assign, find?_insert_self]
    rfl
  -- the object on the way is a new one or the old one, and the rest of the path goes on inside of it
  | cons second rest ih =>
    rw [assign, find?_insert_self, Option.bind_some, Value.index?, Value.step?]
    exact ih _ second

/-! ## Layers -/

namespace Layer

theorem frames_seed (l : Layer) (around : Scope) (first : String) :
    (l.seed around first).frames = l.frames := by
  unfold seed
  split
  · rfl
  · split <;> rfl

@[simp] theorem frames_set (l : Layer) (around : Scope) (path : List String) (v : Value) :
    (l.set around path v).frames = l.frames := by
  unfold set
  split
  · exact l.frames_seed around _
  · rfl

theorem find?_locals_set (l : Layer) (around : Scope) (first : String) (rest : List String)
    (v : Value) :
    ((l.set around (first :: rest) v).locals.find? first).bind (Value.index? rest) = some v :=
  Dict.find?_assign _ first rest v

theorem find?_set {l : Layer} {first : String} (hframes : ∀ f ∈ l.frames, f.find? first = none)
    (around : Scope) (rest : List String) (v : Value) :
    ((l.set around (first :: rest) v).find? first).bind (Value.index? rest) = some v := by
  have hloops : l.frames.findSome? (·.find? first) = none := List.findSome?_eq_none_iff.mpr hframes
  rw [find?, frames_set, hloops, Option.none_or]
  exact l.find?_locals_set around first rest v

end Layer

/-! ## Scopes -/

namespace Scope

theorem find?_of_layer {inner outer : List Layer} {l : Layer} {first : String} {v : Value}
    (hinner : ∀ k ∈ inner, k.find? first = none) (h : l.find? first = some v) (data : Value)
    (rest : List String) :
    find? ⟨inner ++ l :: outer, data⟩ (first :: rest) = v.index? rest := by
  have hskip : inner.findSome? (·.find? first) = none := List.findSome?_eq_none_iff.mpr hinner
  rw [find?, List.findSome?_append, hskip, Option.none_or, List.findSome?_cons, h]

/-- A path that is assigned to in a layer stands for the value from then on, in the layer and in those
opened inside of it, if neither a loop of the layer nor one of those knows its first step. -/
theorem find?_after_set (l : Layer) (around : Scope) {path : List String} (v : Value) {first : String}
    (hpath : path.head? = some first) (hframes : ∀ f ∈ l.frames, f.find? first = none)
    {inner : List Layer} (hinner : ∀ k ∈ inner, k.find? first = none) :
    find? ⟨inner ++ l.set around path v :: around.layers, around.data⟩ path = some v := by
  obtain ⟨rest, rfl⟩ := List.head?_eq_some_iff.mp hpath
  obtain ⟨w, hw, hvalue⟩ := Option.bind_eq_some_iff.mp (l.find?_set hframes around rest v)
  rw [find?_of_layer hinner hw]
  exact hvalue

def itemLayer : Layer := ⟨[⟨[("item", .null)], [], 0, none⟩], []⟩

def userScope : Scope :=
  ⟨[⟨[⟨[("user", .object [("age", .ofNat 42)])], [], 0, none⟩], []⟩], .array []⟩

theorem find?_after_set_user :
    ["user", "name"].head? = some "user" ∧ (∀ f ∈ itemLayer.frames, f.find? "user" = none) ∧
    (∀ k ∈ [itemLayer], k.find? "user" = none) ∧
    find? ⟨[itemLayer] ++ itemLayer.set userScope ["user", "name"] (.string "Jane") ::
      userScope.layers, userScope.data⟩ ["user", "name"] = some (.string "Jane") := by
  have hframes : ∀ f ∈ itemLayer.frames, f.find? "user" = none := List.forall_mem_singleton.mpr rfl
  have hinner : ∀ k ∈ [itemLayer], k.find? "user" = none := List.forall_mem_singleton.mpr rfl
  exact ⟨rfl, hframes, hinner, find?_after_set itemLayer userScope _ rfl hframes hinner⟩

end Scope

end Stencil

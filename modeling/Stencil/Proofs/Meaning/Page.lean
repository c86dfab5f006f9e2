import Stencil.Proofs.Including.Gathering
import Stencil.Proofs.Meaning.Body
/-!
# Pages that come to the same

Renderers that mean the same by every include of some pages render each of those pages to the same,
if no include leads out of them. It does not matter what else the renderers know.
-/

namespace Stencil

namespace Renderer

/-- The renderers mean the same by the includes of some pages, which are among those pages again. -/
structure Agree (r r' : Renderer) (among : Page → Prop) : Prop where
  functions : r.functions = r'.functions
  sorting : r.sorting = r'.sorting
  paths : r.paths = r'.paths
  page : ∀ p, among p → ∀ key, p.Includes key →
    ∃ q, among q ∧ r.page? key = some q ∧ r'.page? key = some q

variable {r r' : Renderer} {among : Page → Prop} {R : Output → Output → Prop}
  {excused : Error → Prop} {depth depth' : Nat} {p : Page} {around around' : Scope}
  {out out' : Output}

/-- Either nothing differs in how deep includes may be nested, or only the second renderer may go
deeper, and coming to the depth of the first one is excused. -/
def Deeper (r r' : Renderer) (excused : Error → Prop) (depth depth' : Nat) : Prop :=
  depth = depth' ∧ r.limit = r'.limit ∨
    depth ≤ depth' ∧ ∀ source span, excused (.located (.includeDepth r.limit) source span)

theorem Agree.context_alike (h : r.Agree r' among) (ha : around.Alike around') :
    (r.context p around).Alike (r'.context p around') :=
  ⟨rfl, h.functions, h.sorting, h.paths, ha⟩

theorem Agree.eval_same (h : r.Agree r' among) (hR : Output.Kept R)
    (hkey : ∀ e key, excused e → excused (e.orIn key)) (hdeep : r.Deeper r' excused depth depth')
    (hp : among p) (ha : around.Alike around') (hout : R out out') :
    (r.eval depth p around out).Same R excused R (r'.eval depth' p around' out') := by
  induction depth generalizing depth' p around around' out out' with
  | zero =>
    rcases hdeep with ⟨rfl, hlimit⟩ | ⟨-, hexcused⟩
    · refine Body.evalAll_same hR (h.context_alike ha) (fun key _ span layer o o' ho => ?_) hout
      rw [hlimit]
      exact .failed _ ho
    · -- Every include of the first renderer is too deep and excused.
      cases depth' <;> exact Body.evalAll_same hR (h.context_alike ha)
        (fun key _ span layer o o' _ => .excused o _ (hexcused _ _)) hout
  | succ depth ih =>
    obtain ⟨depth', rfl⟩ : ∃ n, depth' = n + 1 := by
      rcases hdeep with ⟨rfl, -⟩ | ⟨hle, -⟩
      · exact ⟨depth, rfl⟩
      · exact ⟨depth' - 1, by omega⟩
    have hdeep' : r.Deeper r' excused depth depth' :=
      hdeep.imp (And.imp_left Nat.succ.inj) (And.imp_left Nat.le_of_succ_le_succ)
    refine Body.evalAll_same hR (h.context_alike ha) (fun key hinc span layer o o' ho => ?_) hout
    obtain ⟨q, hq, hr, hr'⟩ := h.page p hp key (Body.ofTags_includes hinc)
    simp only [hr, hr']
    exact (ih hdeep' hq ((h.context_alike ha).scope layer) ho).orIn fun e => hkey e key

theorem Agree.eval_eq (h : r.Agree r' among) (hlimit : r.limit = r'.limit) (hp : among p)
    (ha : around.Alike around') (out : Output) :
    r.eval depth p around out = r'.eval depth p around' out :=
  have hsame := h.eval_same Output.kept_eq (fun _ _ h => h)
    (.inl ⟨rfl, hlimit⟩) hp ha rfl
  hsame.eq fun _ _ _ h => h

end Renderer

end Stencil

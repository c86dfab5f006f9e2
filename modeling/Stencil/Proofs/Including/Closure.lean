import Stencil.Proofs.Including.Pages
import Stencil.Proofs.Rendering.Reaches
/-!
# Includes are closed

A rendering never leaves the pages that compiling has gathered for its template. So every include that
it comes to means one of them, and the templates that the engine holds by then do not count.
-/

namespace Stencil

/-! ## Pages of a template -/

namespace Template

variable {name : Option String} {t : Template} {key : String} {p : Page}

def Has (t : Template) (p : Page) : Prop := p = t.page ∨ ∃ key, t.includes.find? key = some p

theorem Sound.page_sound (h : t.Sound name) (hp : t.Has p) : p.Sound := by
  rcases hp with rfl | ⟨key, hp⟩
  · exact h.root
  · exact h.pages _ (Dict.mem_of_find? hp)

theorem Sound.knows (h : t.Sound name) (hp : t.Has p) (hkey : p.Includes key) :
    t.Knows name key := by
  rcases hp with rfl | ⟨key', hp⟩
  · exact h.root_closed key hkey
  · exact h.closed _ (Dict.mem_of_find? hp) key hkey

/-- What a key means in the template: a page of its includes, or the template itself by its name. -/
def Means (name : Option String) (t : Template) (key : String) (p : Page) : Prop :=
  t.includes.find? key = some p ∨ t.includes.find? key = none ∧ name = some key ∧ p = t.page

theorem Means.has (h : t.Means name key p) : t.Has p := by
  rcases h with h | ⟨-, -, h⟩
  · exact .inr ⟨key, h⟩
  · exact .inl h

theorem Knows.means (h : t.Knows name key) : ∃ p, t.Means name key p := by
  cases hfind : t.includes.find? key with
  | some p => exact ⟨p, .inl hfind⟩
  | none =>
    rcases h with h | h
    · obtain ⟨p, hp⟩ := Dict.has_iff.mp h
      rw [hfind] at hp
      cases hp
    · exact ⟨t.page, .inr ⟨hfind, h, rfl⟩⟩

end Template

theorem Page.Sound.includes {p : Page} (h : p.Sound) {place : Nat} {i : Instr} {key : String}
    (hi : p.code[place]? = some i) (hop : i.op = .inclusion key) : p.Includes key := by
  have hmem := Array.mem_of_getElem? hi
  rw [h.code_eq, List.mem_toArray] at hmem
  have hfits := (Body.code_fits (Body.ofTags_placed h.placed) (fun _ hkey => hkey) 0 i hmem).op
  rw [hop] at hfits
  exact Body.ofTags_includes hfits

/-! ## Renderings -/

namespace Engine

variable {e : Engine} {name : Option String} {t : Template} {data : Value} {out : Output}
  {s : Rendering} {key : String}

theorem page?_of_means {p : Page} (h : t.Means name key p) : e.page? name t key = some p := by
  rcases h with h | ⟨hnone, rfl, rfl⟩
  · rw [page?, h, Option.some_or]
  · rw [page?, hnone, Option.none_or, if_pos rfl, Option.some_or]

theorem means_of_inclusion (ht : t.Sound name) {p : Page} (hp : t.Has p) {place : Nat} {i : Instr}
    (hi : p.code[place]? = some i) (hop : i.op = .inclusion key) : ∃ q, t.Means name key q :=
  (ht.knows hp ((ht.page_sound hp).includes hi hop)).means

theorem reaches_has (ht : t.Sound name)
    (hs : (e.renderer name t).Reaches data (.start name t.page out) s) :
    t.Has s.current.page ∧ ∀ v ∈ s.callers, t.Has v.page := by
  induction hs with
  | refl => exact ⟨.inl rfl, nofun⟩
  | @step s' s'' _ hm ih =>
    obtain ⟨hcurrent, hcallers⟩ := ih
    rcases hm.cases with ⟨place, m, rfl⟩ | ⟨i, key, hi, hop, q, hq, -, rfl⟩ | ⟨v, rest, -, hc, rfl⟩
    · exact ⟨hcurrent, hcallers⟩
    · -- The page that is entered is what the key means in the template.
      obtain ⟨q', hmeans⟩ := means_of_inclusion ht hcurrent hi hop
      have hq' : some q = some q' := hq.symm.trans (page?_of_means hmeans)
      cases hq'
      exact ⟨hmeans.has, List.forall_mem_cons.mpr ⟨hcurrent, hcallers⟩⟩
    · rw [hc, List.forall_mem_cons] at hcallers
      exact hcallers

/-- Every include that a rendering can come to means a page among the includes of its template, or the
template itself by its name. It enters that page, unless this is too deep. -/
theorem inclusion_resolves (he : e.Reached) (ht : e.Offers name t) (data : Value) (out : Output)
    (hs : (e.renderer name t).Reaches data (.start name t.page out) s) {i : Instr}
    (hi : s.current.page.code[s.current.place]? = some i) (hop : i.op = .inclusion key) :
    ∃ p, t.Means name key p ∧ (e.renderer name t).page? key = some p ∧
      ∀ functions, ((e.renderer name t).withFunctions functions).step data s =
        if e.maxDepth ≤ s.callers.length then
          Renderer.fail s (.raised (.located (.includeDepth e.maxDepth) s.current.page.source i.span)) s.out
        else .going ⟨.start (some key) p, s.current :: s.callers, s.out⟩ := by
  have hsound := he.sound_of_offers ht
  obtain ⟨p, hmeans⟩ := means_of_inclusion hsound (reaches_has hsound hs).1 hi hop
  have hpage : (e.renderer name t).page? key = some p := page?_of_means hmeans
  refine ⟨p, hmeans, hpage, fun functions => ?_⟩
  have hpage' : ((e.renderer name t).withFunctions functions).page? key = some p := hpage
  rw [Renderer.step_inclusion hi hop, Renderer.enter, hpage']
  rfl

theorem looping_resolves : looping.Reached ∧ looping.Offers (some "a") ⟨loopPage, []⟩ ∧
    loopPage.code[0]? = some (.plain (.inclusion "a") ⟨3, 14⟩) ∧
    ∃ p, Template.Means (some "a") ⟨loopPage, []⟩ "a" p :=
  have hcode : loopPage.code[0]? = some (.plain (.inclusion "a") ⟨3, 14⟩) := rfl
  have hmeans := inclusion_resolves looping_reached looping_offers .null (.memory "") .refl hcode rfl
  ⟨looping_reached, looping_offers, hcode, hmeans.imp fun _ h => h.1⟩

end Engine

end Stencil

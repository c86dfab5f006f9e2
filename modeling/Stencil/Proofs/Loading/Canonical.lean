import Stencil.Proofs.Loading.Path
/-!
# Paths have one spelling

The normal path of a name says where the name leads and nothing else: it is normal itself, and it
depends on the base only through the place that the base stands for.
-/

namespace Stencil.Path

/-! ## Segments -/

def segments (path : List Char) : List (List Char) :=
  match if isAbsolute path then path.tail else path with
  | [] => []
  | c :: cs => parts (c :: cs)

def render (absolute : Bool) (place : List (List Char)) : List Char :=
  if absolute then '/' :: joined place.reverse else joined place.reverse

theorem normalChars_eq (path : List Char) : normalChars path =
    render (isAbsolute path) ((parts path).foldl (step (isAbsolute path)) []) := rfl

variable {absolute : Bool} {place ps : List (List Char)}

theorem parts_of_solid {part : List Char} (h : Solid part) : parts part = [part] := by
  induction part with
  | nil => rfl
  | cons c cs ih =>
    simp only [Solid, List.forall_mem_cons] at h
    simp [parts, h.1, ih h.2]

theorem parts_joined (hps : ∀ p ∈ ps, Solid p) (hne : ps ≠ []) : parts (joined ps) = ps := by
  induction ps with
  | nil => exact absurd rfl hne
  | cons p rest ih =>
    rw [List.forall_mem_cons] at hps
    cases rest with
    | nil => exact parts_of_solid hps.1
    | cons q rest =>
      rw [joined, parts_append _ _ rfl, parts_of_solid hps.1, ih hps.2 (by simp)]
      · rfl
      · simp

theorem backslash_joined (hps : ∀ p ∈ ps, Solid p) : '\\' ∉ joined ps := by
  have hsolid : ∀ {p : List Char}, Solid p → '\\' ∉ p := by
    intro p hp hmem
    have := hp _ hmem
    simp [isSeparator] at this
  induction ps with
  | nil => simp [joined]
  | cons p rest ih =>
    rw [List.forall_mem_cons] at hps
    cases rest with
    | nil => exact hsolid hps.1
    | cons q rest =>
      have hrest := ih hps.2
      simp only [joined, List.mem_append, List.mem_cons]
      rintro (h | h | h)
      · exact hsolid hps.1 h
      · cases h
      · exact hrest h

/-! ## Places -/

/-- The parts of a normal path, which lead up from the start of a relative one only. -/
structure Reduced (absolute : Bool) (place : List (List Char)) : Prop where
  settled : Settled place
  solid : ∀ p ∈ place, Solid p
  top : absolute = true → up ∉ place

theorem solid_up : Solid up := by
  intro c hc
  simp only [up, List.mem_cons, List.not_mem_nil, or_false, or_self] at hc
  rw [hc]
  rfl

theorem mem_step {part p : List Char} (h : p ∈ step absolute place part) :
    p ∈ place ∨ (p = part ∧ part ≠ up) ∨ (p = up ∧ absolute = false) := by
  unfold step at h
  split at h
  · exact .inl h
  · split at h
    · next hup =>
      rcases List.mem_cons.mp h with rfl | h
      · exact .inr (.inl ⟨rfl, hup⟩)
      · exact .inl h
    · cases place with
      | nil => cases absolute <;> simp_all
      | cons last rest =>
        dsimp only at h
        split at h
        · exact .inl (List.mem_cons_of_mem _ h)
        · split at h
          · exact .inl h
          · next hrelative =>
            rcases List.mem_cons.mp h with rfl | h
            · exact .inr (.inr ⟨rfl, by simpa using hrelative⟩)
            · exact .inl h

theorem Reduced.nil (absolute : Bool) : Reduced absolute [] :=
  ⟨⟨[], 0, rfl, nofun⟩, nofun, nofun⟩

theorem Reduced.step {part : List Char} (h : Reduced absolute place) (hpart : Solid part) :
    Reduced absolute (step absolute place part) := by
  refine ⟨step_settled absolute h.settled hpart.slash, ?_, ?_⟩
  · intro p hp
    rcases mem_step hp with hp | ⟨rfl, -⟩ | ⟨rfl, -⟩
    · exact h.solid p hp
    · exact hpart
    · exact solid_up
  · intro habsolute hup
    rcases mem_step hup with hp | ⟨hp, hne⟩ | ⟨-, hrelative⟩
    · exact h.top habsolute hp
    · exact hne hp.symm
    · rw [habsolute] at hrelative
      cases hrelative

theorem Reduced.foldl (h : Reduced absolute place) (hps : ∀ p ∈ ps, Solid p) :
    Reduced absolute (ps.foldl (Path.step absolute) place) := by
  induction ps generalizing place with
  | nil => exact h
  | cons p ps ih =>
    rw [List.forall_mem_cons] at hps
    exact ih (h.step hps.1) hps.2

theorem reduced_parts (absolute : Bool) (path : List Char) :
    Reduced absolute ((parts path).foldl (step absolute) []) :=
  (Reduced.nil absolute).foldl (solid_parts path)

theorem Reduced.reverse_ne (h : Reduced absolute place) :
    ∀ p ∈ place.reverse, Solid p ∧ p ≠ [] ∧ p ≠ ['.'] := by
  intro p hp
  rw [List.mem_reverse] at hp
  refine ⟨h.solid p hp, ?_⟩
  obtain ⟨inward, n, rfl, hinward⟩ := h.settled
  rcases List.mem_append.mp hp with hp | hp
  · exact ⟨(hinward p hp).ne_nil, (hinward p hp).ne_dot⟩
  · rw [List.eq_of_mem_replicate hp]
    decide

/-! ## The text of a place -/

theorem joined_cons {p : List Char} (hp : Solid p) (hne : p ≠ []) (rest : List (List Char)) :
    ∃ c cs, joined (p :: rest) = c :: cs ∧ c ≠ '/' := by
  cases p with
  | nil => exact absurd rfl hne
  | cons c cs =>
    have hc : c ≠ '/' := by
      rintro rfl
      exact hp.slash List.mem_cons_self
    cases rest with
    | nil => exact ⟨c, cs, rfl, hc⟩
    | cons q rest => exact ⟨c, _, rfl, hc⟩

theorem isAbsolute_render (h : Reduced absolute place) :
    isAbsolute (render absolute place) = absolute := by
  unfold render
  cases absolute with
  | true => rfl
  | false =>
    have hne := h.reverse_ne
    cases hplace : place.reverse with
    | nil => rfl
    | cons p rest =>
      rw [hplace, List.forall_mem_cons] at hne
      obtain ⟨c, cs, hjoined, hc⟩ := joined_cons hne.1.1 hne.1.2.1 rest
      simp [hjoined, isAbsolute, hc]

theorem segments_render (h : Reduced absolute place) :
    segments (render absolute place) = place.reverse := by
  have hne := h.reverse_ne
  have htext : (if isAbsolute (render absolute place) then (render absolute place).tail
      else render absolute place) = joined place.reverse := by
    rw [isAbsolute_render h]
    cases absolute <;> rfl
  unfold segments
  rw [htext]
  cases hplace : place.reverse with
  | nil => rfl
  | cons p rest =>
    rw [hplace] at hne
    have hparts := parts_joined (fun p hp => (hne p hp).1) (List.cons_ne_nil p rest)
    rw [List.forall_mem_cons] at hne
    obtain ⟨c, cs, hjoined, -⟩ := joined_cons hne.1.1 hne.1.2.1 rest
    rw [hjoined] at hparts ⊢
    exact hparts

/-! ## Going along a path -/

theorem step_nil (absolute : Bool) (place : List (List Char)) : step absolute place [] = place := by
  simp [step]

theorem foldl_joined (hps : ∀ p ∈ ps, Solid p) :
    (parts (joined ps)).foldl (step absolute) place = ps.foldl (step absolute) place := by
  cases ps with
  | nil => simp [joined, parts, step_nil]
  | cons p rest => rw [parts_joined hps (by simp)]

theorem foldl_reduced (h : Reduced absolute place) :
    place.reverse.foldl (step absolute) [] = place := by
  obtain ⟨inward, n, rfl, hinward⟩ := h.settled
  have hups : (List.replicate n up).foldl (step absolute) [] = List.replicate n up := by
    cases absolute with
    | true =>
      have htop := h.top rfl
      have hn : n = 0 := by simpa using (not_or.mp (mt List.mem_append.mpr htop)).2
      rw [hn]
      rfl
    | false =>
      clear h
      induction n with
      | zero => rfl
      | succ n ih =>
        rw [List.replicate_succ', List.foldl_append, ih, ← List.replicate_succ']
        cases n <;> simp [step, up, List.replicate_succ]
  rw [List.reverse_append, List.reverse_replicate, List.foldl_append, hups]
  clear h
  induction inward with
  | nil => rfl
  | cons p rest ih =>
    rw [List.forall_mem_cons] at hinward
    rw [List.reverse_cons, List.foldl_append, ih hinward.2]
    simp [step, hinward.1.ne_nil, hinward.1.ne_dot, hinward.1.ne_up]

theorem foldl_render (h : Reduced absolute place) :
    (parts (render absolute place)).foldl (step absolute) [] = place := by
  have hjoined : (parts (joined place.reverse)).foldl (step absolute) [] = place := by
    rw [foldl_joined fun p hp => (h.reverse_ne p hp).1, foldl_reduced h]
  cases absolute with
  | false => exact hjoined
  | true =>
    rw [render, if_pos rfl]
    simpa [parts, isSeparator, step_nil] using hjoined

theorem normalChars_render (h : Reduced absolute place) :
    normalChars (render absolute place) = render absolute place := by
  rw [normalChars_eq, isAbsolute_render h, foldl_render h]

theorem normalChars_render_append (h : Reduced absolute place) (hne : render absolute place ≠ [])
    (name : List Char) : normalChars (render absolute place ++ '/' :: name) =
      render absolute ((parts name).foldl (step absolute) place) := by
  have habsolute : isAbsolute (render absolute place ++ '/' :: name) = absolute := by
    have htext := isAbsolute_render h
    cases hcs : render absolute place with
    | nil => exact absurd hcs hne
    | cons c cs =>
      rw [hcs] at htext
      exact htext
  rw [normalChars_eq, habsolute, parts_append _ _ rfl, List.foldl_append, foldl_render h]

/-! ## Bases -/

/-- What names can be relative to: nothing, or a path with a separator behind it. -/
def IsBase (base : List Char) : Prop :=
  base = [] ∨ ∃ front c, base = front ++ [c] ∧ isSeparator c = true

/-- The pages of a template take their names from such a base. -/
theorem directory_isBase (path : String) : IsBase (directory path).toList := by
  rw [directory, String.toList_ofList]
  cases hrest : path.toList.reverse.dropWhile (!isSeparator ·) with
  | nil => exact .inl rfl
  | cons c rest =>
    have hc := List.head?_dropWhile_not (!isSeparator ·) path.toList.reverse
    rw [hrest] at hc
    exact .inr ⟨rest.reverse, c, by simp, by simpa using hc⟩

def canonicalBase (base : String) : String :=
  if normal "" base = "" then "" else normal "" base ++ "/"

theorem normal_absolute {name : String} (h : isAbsolute name.toList = true) (base : String) :
    normal base name = String.ofList (normalChars name.toList) := by
  rw [normal, resolve, if_pos h]

theorem normal_empty (name : String) :
    normal "" name = String.ofList (normalChars name.toList) := by
  unfold normal resolve
  split <;> simp

theorem resolve_relative {name : List Char} (h : isAbsolute name = false) (base : List Char) :
    resolve base name = base ++ name := by
  simp [resolve, h]

theorem normalChars_base {front name : List Char} {c : Char} (hc : isSeparator c = true) :
    normalChars (front ++ c :: name) =
      render (isAbsolute (front ++ [c])) ((parts name).foldl (step (isAbsolute (front ++ [c])))
        ((parts front).foldl (step (isAbsolute (front ++ [c]))) [])) := by
  have habsolute : isAbsolute (front ++ c :: name) = isAbsolute (front ++ [c]) := by
    cases front <;> rfl
  rw [normalChars_eq, habsolute, parts_append _ _ hc, List.foldl_append]

theorem render_eq_nil (h : Reduced absolute place) (htext : render absolute place = []) :
    absolute = false ∧ place = [] := by
  have habsolute := isAbsolute_render h
  have hsegments := segments_render h
  rw [htext] at habsolute hsegments
  exact ⟨habsolute.symm, List.reverse_eq_nil_iff.mp hsegments.symm⟩

theorem normal_canonicalBase {base : String} (hbase : IsBase base.toList) (name : String) :
    normal (canonicalBase base) name = normal base name := by
  by_cases hname : isAbsolute name.toList = true
  · rw [normal_absolute hname, normal_absolute hname]
  rw [Bool.not_eq_true] at hname
  rcases hbase with hbase | ⟨front, c, hbase, hc⟩
  · have hempty : base = "" := String.toList_inj.mp hbase
    rw [hempty]
    rfl
  · have hplace := reduced_parts (isAbsolute (front ++ [c])) front
    have hnormal : normal "" base = String.ofList (render (isAbsolute (front ++ [c]))
        ((parts front).foldl (step (isAbsolute (front ++ [c]))) [])) := by
      rw [normal_empty, hbase, normalChars_base hc]
      simp [parts, step_nil]
    have hright : normal base name = String.ofList (normalChars (front ++ c :: name.toList)) := by
      rw [normal, hbase, resolve_relative hname]
      simp
    rw [hright, normalChars_base hc, canonicalBase, hnormal]
    generalize (parts front).foldl (step (isAbsolute (front ++ [c]))) [] = place at hplace
    generalize isAbsolute (front ++ [c]) = absolute at hplace
    by_cases htext : render absolute place = []
    · -- the base leads nowhere, and the name is taken as it is
      obtain ⟨rfl, rfl⟩ := render_eq_nil hplace htext
      rw [if_pos (by rw [htext]), normal_empty, normalChars_eq, hname]
    · rw [if_neg (by simpa using htext), normal, resolve_relative hname]
      simp only [String.toList_append, String.toList_ofList, List.append_assoc]
      rw [← normalChars_render_append hplace htext]
      rfl

/-! ## Normal paths -/

/-- A path in its one spelling. -/
structure Canonical (absolute : Bool) (path : String) : Prop where
  top : isAbsolute path.toList = absolute
  backslash : '\\' ∉ path.toList
  ne_nil : [] ∉ segments path.toList
  ne_dot : ['.'] ∉ segments path.toList
  /-- Steps up come first, and only where the path begins nowhere in particular. -/
  ups : ∃ n rest, segments path.toList = List.replicate n up ++ rest ∧ up ∉ rest ∧
    (absolute = true → n = 0)
  fixed : normal "" path = path

theorem canonical_render (h : Reduced absolute place) :
    Canonical absolute (String.ofList (render absolute place)) := by
  have hne := h.reverse_ne
  obtain ⟨inward, n, hplace, hinward⟩ := h.settled
  constructor
  · rw [String.toList_ofList, isAbsolute_render h]
  · have hjoined := backslash_joined fun p hp => (hne p hp).1
    rw [String.toList_ofList, render]
    cases absolute <;> simpa using hjoined
  · rw [String.toList_ofList, segments_render h]
    exact fun hmem => (hne _ hmem).2.1 rfl
  · rw [String.toList_ofList, segments_render h]
    exact fun hmem => (hne _ hmem).2.2 rfl
  · rw [String.toList_ofList, segments_render h, hplace, List.reverse_append,
      List.reverse_replicate]
    refine ⟨n, inward.reverse, rfl, ?_, ?_⟩
    · intro hup
      exact (hinward up (List.mem_reverse.mp hup)).ne_up rfl
    · intro habsolute
      have htop := h.top habsolute
      rw [hplace] at htop
      simpa using (not_or.mp (mt List.mem_append.mpr htop)).2
  · rw [normal_empty, String.toList_ofList, normalChars_render h]

/-- The path that a name means is in its one spelling, absolute if the name is or else the base, and
nothing changes if the base is put into its one spelling first. -/
theorem normal_canonical {base : String} (hbase : IsBase base.toList) (name : String) :
    Canonical (isAbsolute (resolve base.toList name.toList)) (normal base name) ∧
      normal (canonicalBase base) name = normal base name := by
  refine ⟨?_, normal_canonicalBase hbase name⟩
  rw [normal, normalChars_eq]
  exact canonical_render (reduced_parts _ _)

theorem normal_canonical_up : IsBase "a\\.//b/".toList ∧
    Canonical false (normal "a\\.//b/" "../../..\\c") ∧
    canonicalBase "a\\.//b/" = "a/b/" ∧
    normal (canonicalBase "a\\.//b/") "../../..\\c" = "../c" := by
  have hbase : IsBase "a\\.//b/".toList := .inr ⟨"a\\.//b".toList, '/', by decide, rfl⟩
  obtain ⟨hcanonical, hsame⟩ := normal_canonical hbase "../../..\\c"
  exact ⟨hbase, hcanonical, by decide, hsame.trans (by decide)⟩

end Stencil.Path

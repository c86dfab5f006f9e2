import Stencil.Builtin
import Stencil.Proofs.Order.Value
/-!
# Sorting

Sorting puts the items in order wherever comparing carries over. Among values without doubles only
identical ones are equal, so there is just one order for the items, and its ends are the extremes.
-/

namespace Stencil

/-! ## Whole numbers -/

namespace Number

def IsWhole : Number → Prop
  | .whole _ => True
  | .double _ => False

theorem clear_isWhole : Clear IsWhole := by
  intro m n x _ _ hx
  exact hx.elim

theorem eq_of_order {a b : Number} (ha : a.IsWhole) (hb : b.IsWhole) (h : a.order b = .eq) : a = b := by
  cases a with
  | double x => exact ha.elim
  | whole m =>
    cases b with
    | double y => exact hb.elim
    | whole n => rw [Whole.ext (Int.compare_eq_eq.mp h)]

end Number

namespace Value

variable {among : Number → Prop} {items : List Value}

mutual

theorem eq_of_order : ∀ a b : Value, a.Within Number.IsWhole → b.Within Number.IsWhole →
    order a b = .eq → a = b
  | .null, b, _, _, h => by
    cases b with
    | null => rfl
    | _ => simp [order, kind, Kind.rank] at h
  | .bool x, b, _, _, h => by
    cases b with
    | bool y => rw [Std.LawfulEqOrd.eq_of_compare h]
    | _ => simp [order, kind, Kind.rank] at h
  | .number x, b, hx, hy, h => by
    cases b with
    | number y => rw [Number.eq_of_order hx hy h]
    | _ => simp [order, kind, Kind.rank] at h
  | .string x, b, _, _, h => by
    cases b with
    | string y => rw [Std.LawfulEqOrd.eq_of_compare h]
    | _ => simp [order, kind, Kind.rank] at h
  | .array xs, b, hx, hy, h => by
    cases b with
    | array ys => rw [eq_of_orderItems xs ys hx hy h]
    | _ => simp [order, kind, Kind.rank] at h
  | .object xs, b, hx, hy, h => by
    cases b with
    | object ys => rw [eq_of_orderFields xs ys hx hy h]
    | _ => simp [order, kind, Kind.rank] at h

theorem eq_of_orderItems : ∀ xs ys : List Value, ItemsWithin Number.IsWhole xs →
    ItemsWithin Number.IsWhole ys → orderItems xs ys = .eq → xs = ys
  | [], [], _, _, _ => rfl
  | [], _ :: _, _, _, h => by simp [orderItems] at h
  | _ :: _, [], _, _, h => by simp [orderItems] at h
  | x :: xs, y :: ys, hx, hy, h => by
    rw [orderItems_cons, Ordering.then_eq_eq] at h
    rw [eq_of_order x y hx.1 hy.1 h.1, eq_of_orderItems xs ys hx.2 hy.2 h.2]

theorem eq_of_orderFields : ∀ xs ys : List (String × Value), FieldsWithin Number.IsWhole xs →
    FieldsWithin Number.IsWhole ys → orderFields xs ys = .eq → xs = ys
  | [], [], _, _, _ => rfl
  | [], _ :: _, _, _, h => by simp [orderFields] at h
  | _ :: _, [], _, _, h => by simp [orderFields] at h
  | (k, x) :: xs, (l, y) :: ys, hx, hy, h => by
    rw [orderFields_cons, Ordering.then_eq_eq, Ordering.then_eq_eq] at h
    rw [Std.LawfulEqOrd.eq_of_compare h.1, eq_of_order x y hx.1 hy.1 h.2.1,
      eq_of_orderFields xs ys hx.2 hy.2 h.2.2]

end

theorem itemsWithin_iff : ItemsWithin among items ↔ ∀ x ∈ items, x.Within among := by
  induction items with
  | nil => simp [ItemsWithin]
  | cons x xs ih => simp [ItemsWithin, ih]

/-! ## Ascending lists -/

def Ascending (items : List Value) : Prop := items.Pairwise fun a b => order a b ≠ .gt

theorem ne_gt_of_lt {a b : Value} (h : order a b = .lt) : order a b ≠ .gt := by simp [h]

theorem ne_gt_of_not_lt {a b : Value} (h : order a b ≠ .lt) : order b a ≠ .gt := by
  rw [order_swap b a]
  simpa using h

/-! ## Insertion -/

theorem insertDescending_perm (x : Value) (items : List Value) :
    (insertDescending x items).Perm (x :: items) := by
  induction items with
  | nil => simp [insertDescending]
  | cons y ys ih =>
    unfold insertDescending
    split
    · exact (ih.cons y).trans (List.Perm.swap x y ys)
    · exact List.Perm.refl _

theorem insertDescending_sorted (h : Number.Clear among) {x : Value} (hx : x.Within among)
    (hitems : ∀ y ∈ items, y.Within among) (hsorted : items.Pairwise fun a b => order b a ≠ .gt) :
    (insertDescending x items).Pairwise fun a b => order b a ≠ .gt := by
  induction items with
  | nil => simp [insertDescending]
  | cons y ys ih =>
    rw [List.forall_mem_cons] at hitems
    rw [List.pairwise_cons] at hsorted
    unfold insertDescending
    split
    · next hlt =>
      rw [List.pairwise_cons]
      constructor
      · intro z hz
        rcases List.mem_cons.mp ((insertDescending_perm x ys).mem_iff.mp hz) with rfl | hz
        · exact ne_gt_of_lt hlt
        · exact hsorted.1 z hz
      · exact ih hitems.2 hsorted.2
    · next hlt =>
      rw [List.pairwise_cons]
      refine ⟨?_, List.pairwise_cons.mpr hsorted⟩
      intro z hz
      have hyx := ne_gt_of_not_lt hlt
      rcases List.mem_cons.mp hz with rfl | hz
      · exact hyx
      · exact (order_chain h z y x (hitems.2 z hz) hitems.1 hx).ne_gt (hsorted.1 z hz) hyx

theorem foldl_insertDescending (h : Number.Clear among) {sorted : List Value}
    (hitems : ∀ x ∈ items, x.Within among) (hwithin : ∀ x ∈ sorted, x.Within among)
    (hsorted : sorted.Pairwise fun a b => order b a ≠ .gt) :
    (items.foldl (fun sorted x => insertDescending x sorted) sorted).Pairwise
      fun a b => order b a ≠ .gt := by
  induction items generalizing sorted with
  | nil => exact hsorted
  | cons x xs ih =>
    rw [List.forall_mem_cons] at hitems
    refine ih hitems.2 ?_ (insertDescending_sorted h hitems.1 hwithin hsorted)
    intro z hz
    rcases List.mem_cons.mp ((insertDescending_perm x sorted).mem_iff.mp hz) with rfl | hz
    · exact hitems.1
    · exact hwithin z hz

theorem foldl_insertDescending_perm (items sorted : List Value) :
    (items.foldl (fun sorted x => insertDescending x sorted) sorted).Perm (items ++ sorted) := by
  induction items generalizing sorted with
  | nil => exact List.Perm.refl _
  | cons x xs ih =>
    refine (ih _).trans ?_
    refine ((insertDescending_perm x sorted).append_left xs).trans ?_
    exact List.perm_middle

theorem insertionSort_perm (items : List Value) : (insertionSort items).Perm items := by
  unfold insertionSort
  refine (List.reverse_perm _).trans ?_
  simpa using foldl_insertDescending_perm items []

theorem insertionSort_ascending (h : Number.Clear among) (hitems : ∀ x ∈ items, x.Within among) :
    Ascending (insertionSort items) := by
  unfold Ascending insertionSort
  rw [List.pairwise_reverse]
  exact foldl_insertDescending h hitems nofun List.Pairwise.nil

/-! ## Merging -/

/-- Comparing carries over among the items, though not among all values. So the items are sorted as
members of the part where it does. -/
theorem mergeSort_ascending (h : Number.Clear among) (hitems : ∀ x ∈ items, x.Within among) :
    Ascending (items.mergeSort fun a b => order a b != .gt) := by
  let le : {x : Value // x.Within among} → {x : Value // x.Within among} → Bool :=
    fun a b => order a.val b.val != .gt
  have hmap : (items.mergeSort fun a b => order a b != .gt) =
      ((items.attachWith (·.Within among) hitems).mergeSort le).map Subtype.val := by
    rw [List.map_mergeSort (r := le) (s := fun a b => order a b != .gt) (fun _ _ _ _ => rfl),
      List.attachWith_map_subtype_val]
  have hsorted : ((items.attachWith (·.Within among) hitems).mergeSort le).Pairwise
      fun a b => le a b = true := by
    apply List.pairwise_mergeSort
    · intro a b c hab hbc
      have hchain := order_chain h a.val b.val c.val a.property b.property c.property
      simp only [le, bne_iff_ne] at hab hbc ⊢
      exact hchain.ne_gt hab hbc
    · intro a b
      simp only [le, Bool.or_eq_true, bne_iff_ne]
      by_cases hlt : order a.val b.val = .lt
      · exact .inl (ne_gt_of_lt hlt)
      · exact .inr (ne_gt_of_not_lt hlt)
  unfold Ascending
  rw [hmap, List.pairwise_map]
  exact hsorted.imp fun hle => by simpa [le] using hle

/-! ## Sorting -/

theorem sort_perm (items : List Value) : (sort items).Perm items := by
  unfold sort
  split
  · exact insertionSort_perm items
  · exact List.mergeSort_perm items _

theorem sort_ascending (h : Number.Clear among) (hitems : ItemsWithin among items) :
    Ascending (sort items) := by
  rw [itemsWithin_iff] at hitems
  unfold sort
  split
  · exact insertionSort_ascending h hitems
  · exact mergeSort_ascending h hitems

theorem ordered_of_clear (h : Number.Clear among) (hitems : ItemsWithin among items) :
    Ordered items := by
  rw [itemsWithin_iff] at hitems
  intro a ha b hb c hc
  exact (order_chain h a b c (hitems a ha) (hitems b hb) (hitems c hc)).ne_gt

/-- However values are sorted, those in an order come out sorted. -/
theorem apply_sort (sorting : Sorting) (h : Ordered items) :
    Builtin.sort.apply sorting [.array items] = .ok (.array (sort items)) := by
  have hsorted : Builtin.sorted sorting items = .ok (sort items) := by
    rw [Builtin.sorted, sorting.sort_ordered items h]
  show (do return Value.array (← Builtin.sorted sorting items)) = _
  rw [hsorted]
  rfl

theorem eq_of_ascending {xs ys : List Value} (hxs : ItemsWithin Number.IsWhole xs)
    (hx : Ascending xs) (hy : Ascending ys) (hperm : xs.Perm ys) : xs = ys := by
  rw [itemsWithin_iff] at hxs
  refine List.Perm.eq_of_pairwise ?_ hx hy hperm
  intro a b ha hb hab hba
  apply eq_of_order a b (hxs a ha) (hxs b (hperm.mem_iff.mpr hb))
  rw [order_swap b a] at hba
  cases ho : order a b with
  | lt => simp [ho] at hba
  | eq => rfl
  | gt => exact absurd ho hab

theorem sort_eq (hitems : ItemsWithin Number.IsWhole items) {sorted : List Value}
    (hperm : sorted.Perm items) (h : Ascending sorted) : sort items = sorted := by
  have hsort : ItemsWithin Number.IsWhole (sort items) := by
    rw [itemsWithin_iff] at hitems ⊢
    exact fun x hx => hitems x ((sort_perm items).mem_iff.mp hx)
  exact eq_of_ascending hsort (sort_ascending Number.clear_isWhole hitems) h
    ((sort_perm items).trans hperm.symm)

/-! ## Extremes -/

/-- An item that no item beats. -/
structure Best (wanted : Ordering) (items : List Value) (best : Value) : Prop where
  mem : best ∈ items
  unbeaten : ∀ x ∈ items, order x best ≠ wanted

variable {wanted : Ordering} {best : Value}

theorem Best.next (h : Number.Clear among) (hwanted : wanted ≠ .eq) {x : Value}
    (hitems : ∀ y ∈ items, y.Within among) (hx : x.Within among) (hbest : Best wanted items best) :
    Best wanted (items ++ [x]) (if order x best = wanted then x else best) := by
  split
  · next hbeats =>
    refine ⟨by simp, ?_⟩
    intro y hy heq
    rcases List.mem_append.mp hy with hy | hy
    · have hchain := order_chain h y x best (hitems y hy) hx (hitems best hbest.mem)
      exact hbest.unbeaten y hy ((hchain.same (heq.trans hbeats.symm)).trans heq)
    · rw [List.mem_singleton.mp hy, order_self] at heq
      exact hwanted heq.symm
  · next hbeats =>
    refine ⟨List.mem_append_left _ hbest.mem, ?_⟩
    intro y hy
    rcases List.mem_append.mp hy with hy | hy
    · exact hbest.unbeaten y hy
    · rwa [List.mem_singleton.mp hy]

theorem Best.foldl (h : Number.Clear among) (hwanted : wanted ≠ .eq) {rest : List Value}
    (hitems : ∀ y ∈ items ++ rest, y.Within among) (hbest : Best wanted items best) :
    Best wanted (items ++ rest)
      (rest.foldl (fun best item => if order item best = wanted then item else best) best) := by
  induction rest generalizing items best with
  | nil => simpa using hbest
  | cons x xs ih =>
    have hnext := hbest.next h hwanted (fun y hy => hitems y (List.mem_append_left _ hy))
      (hitems x (by simp))
    rw [List.append_cons] at hitems ⊢
    exact ih hitems hnext

theorem extreme_best (h : Number.Clear among) (hwanted : wanted ≠ .eq) {x : Value} {xs : List Value}
    (hitems : ItemsWithin among (x :: xs)) :
    ∃ best, extreme wanted (x :: xs) = some best ∧ Best wanted (x :: xs) best := by
  rw [itemsWithin_iff] at hitems
  have hfirst : Best wanted [x] x := by
    refine ⟨List.mem_singleton_self x, ?_⟩
    intro y hy
    rw [List.mem_singleton.mp hy, order_self]
    exact hwanted.symm
  exact ⟨_, rfl, hfirst.foldl h hwanted hitems⟩

theorem Ascending.head_best {x : Value} {xs : List Value} (h : Ascending (x :: xs)) :
    Best .lt (x :: xs) x := by
  refine ⟨List.mem_cons_self, ?_⟩
  intro y hy
  rcases List.mem_cons.mp hy with rfl | hy
  · simp [order_self]
  · rw [order_swap y x]
    simpa using (List.pairwise_cons.mp h).1 y hy

theorem Ascending.last_best {xs : List Value} {x : Value} (h : Ascending (xs ++ [x])) :
    Best .gt (xs ++ [x]) x := by
  refine ⟨by simp, ?_⟩
  intro y hy
  rcases List.mem_append.mp hy with hy | hy
  · exact (List.pairwise_append.mp h).2.2 y hy x (List.mem_singleton_self x)
  · simp [List.mem_singleton.mp hy, order_self]

theorem Best.perm {other : List Value} (h : Best wanted items best) (hperm : items.Perm other) :
    Best wanted other best :=
  ⟨hperm.mem_iff.mp h.mem, fun x hx => h.unbeaten x (hperm.mem_iff.mpr hx)⟩

theorem Best.unique (hwanted : wanted ≠ .eq) (hitems : ItemsWithin Number.IsWhole items)
    {a b : Value} (ha : Best wanted items a) (hb : Best wanted items b) : a = b := by
  rw [itemsWithin_iff] at hitems
  apply eq_of_order a b (hitems a ha.mem) (hitems b hb.mem)
  have hab := hb.unbeaten a ha.mem
  have hba := ha.unbeaten b hb.mem
  rw [order_swap b a] at hba
  cases ho : order a b <;> cases wanted <;> simp_all

theorem extreme_eq (hwanted : wanted ≠ .eq) (hitems : ItemsWithin Number.IsWhole items)
    (hbest : Best wanted items best) : extreme wanted items = some best := by
  cases items with
  | nil => cases hbest.mem
  | cons x xs =>
    obtain ⟨found, hfound, hbest'⟩ := extreme_best Number.clear_isWhole hwanted hitems
    rw [hfound, hbest'.unique hwanted hitems hbest]

theorem least_eq_head (hitems : ItemsWithin Number.IsWhole items) :
    least items = (sort items).head?.getD .null := by
  have hperm := sort_perm items
  have hascending := sort_ascending Number.clear_isWhole hitems
  unfold least
  cases hsort : sort items with
  | nil =>
    rw [hsort] at hperm
    rw [hperm.nil_eq.symm]
    rfl
  | cons x xs =>
    rw [hsort] at hperm hascending
    rw [extreme_eq (by decide) hitems (hascending.head_best.perm hperm)]
    rfl

theorem greatest_eq_last (hitems : ItemsWithin Number.IsWhole items) :
    greatest items = (sort items).getLast?.getD .null := by
  have hperm := sort_perm items
  have hascending := sort_ascending Number.clear_isWhole hitems
  unfold greatest
  rcases List.eq_nil_or_concat (sort items) with hsort | ⟨xs, x, hsort⟩
  · rw [hsort] at hperm
    rw [hperm.nil_eq.symm]
    rfl
  · rw [List.concat_eq_append] at hsort
    rw [hsort] at hperm hascending ⊢
    rw [extreme_eq (by decide) hitems (hascending.last_best.perm hperm)]
    simp

/-- However values are sorted, an array without doubles has one sorted form. It is a permutation of the
array in ascending order, it is the same for every permutation, and sorting leaves it alone. Items that
compare equal are identical, and the extremes are its ends. -/
theorem sort_settles (sorting : Sorting) {items : List Value} (h : ItemsWithin Number.IsWhole items) :
    ∃ sorted, Builtin.sort.apply sorting [.array items] = .ok (.array sorted) ∧
      sorted.Perm items ∧ sorted.Pairwise (fun a b => order a b ≠ .gt) ∧
      Builtin.sort.apply sorting [.array sorted] = .ok (.array sorted) ∧
      (∀ other : List Value, other.Perm items →
        Builtin.sort.apply sorting [.array other] = .ok (.array sorted)) ∧
      (∀ a ∈ items, ∀ b ∈ items, order a b = .eq ↔ a = b) ∧
      Builtin.max.apply sorting [.array items] = .ok (sorted.getLast?.getD .null) ∧
      Builtin.min.apply sorting [.array items] = .ok (sorted.head?.getD .null) := by
  have hperm := sort_perm items
  have hascending := sort_ascending Number.clear_isWhole h
  have hother : ∀ other : List Value, other.Perm items →
      Builtin.sort.apply sorting [.array other] = .ok (.array (sort items)) := by
    intro other hother
    have hwithin : ItemsWithin Number.IsWhole other := by
      rw [itemsWithin_iff] at h ⊢
      exact fun x hx => h x (hother.mem_iff.mp hx)
    rw [apply_sort sorting (ordered_of_clear Number.clear_isWhole hwithin),
      sort_eq hwithin (hperm.trans hother.symm) hascending]
  refine ⟨sort items, hother items (.refl _), hperm, hascending, hother _ hperm, hother, ?_, ?_, ?_⟩
  · intro a ha b hb
    rw [itemsWithin_iff] at h
    constructor
    · exact eq_of_order a b (h a ha) (h b hb)
    · rintro rfl
      exact order_self a
  · exact congrArg Except.ok (greatest_eq_last h)
  · exact congrArg Except.ok (least_eq_head h)

def lowest : Whole := ⟨-9223372036854775808, by decide, by decide⟩

def unsigned : Whole := ⟨9223372036854775808, by decide, by decide⟩

def highest : Whole := ⟨18446744073709551615, by decide, by decide⟩

def mixed : List Value :=
  [.array [.number (.whole highest)], .number (.whole unsigned), .object [("k", .array [])],
    .array [.number (.whole lowest), .null], .number (.whole lowest), .bool true]

theorem mixed_settles : ItemsWithin Number.IsWhole mixed ∧ ∃ sorted,
    sorted = [.bool true, .number (.whole lowest), .number (.whole unsigned), .object [("k", .array [])],
      .array [.number (.whole lowest), .null], .array [.number (.whole highest)]] ∧
    Builtin.sort.apply .stable [.array mixed.reverse] = .ok (.array sorted) ∧
    Builtin.max.apply .stable [.array mixed] = .ok (.array [.number (.whole highest)]) := by
  have hwhole : ItemsWithin Number.IsWhole mixed := by
    simp [mixed, ItemsWithin, FieldsWithin, Within, Number.IsWhole]
  obtain ⟨sorted, hsort, -, -, -, hother, -, hmax, -⟩ := sort_settles .stable hwhole
  have hsorted : Builtin.sort.apply .stable [.array mixed] = .ok (.array [.bool true,
      .number (.whole lowest), .number (.whole unsigned), .object [("k", .array [])],
      .array [.number (.whole lowest), .null], .array [.number (.whole highest)]]) := by rfl
  rw [hsort] at hsorted
  cases hsorted
  exact ⟨hwhole, _, rfl, hother _ (List.reverse_perm mixed), hmax⟩

end Value

end Stencil

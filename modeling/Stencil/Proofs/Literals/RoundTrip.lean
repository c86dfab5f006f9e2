import Stencil.Json.Printer
import Stencil.Proofs.Arithmetic.Numeral
import Stencil.Proofs.Literals.Cutting
import Stencil.Proofs.Order.Sorting
/-!
# The text of a value read again

The compact text of a value is read as that value, if its numbers are whole numbers. Strings may hold any
characters, and arrays and objects may be nested as deep as the reader allows.
-/

namespace Stencil

/-! ## Strings -/

namespace Json

variable {n levels : Nat} {cs rest tail : List Char} {s : List Char}

theorem hexDigit?_hexChar : ∀ k < 16, hexDigit? (hexChar k) = some k := by decide

theorem hex4?_control {k : Nat} (h : k < 32) :
    hex4? '0' '0' (hexChar (k / 16)) (hexChar (k % 16)) = some k := by
  have hzero : hexDigit? '0' = some 0 := rfl
  rw [hex4?, hzero, hexDigit?_hexChar _ (by omega), hexDigit?_hexChar _ (by omega)]
  show some ((0 * 16 + 0) * 256 + (k / 16 * 16 + k % 16)) = some k
  congr 1
  omega

theorem stringBody?_escape (c : Char) (h : stringBody? n rest = some (s, tail)) :
    stringBody? (n + 1) (escape c ++ rest) = some (c :: s, tail) := by
  have hescaped : ∀ x, escapeChar? x = some c → x ≠ 'u' →
      stringBody? (n + 1) ('\\' :: x :: rest) = some (c :: s, tail) := by
    intro x hx hne
    rw [stringBody?, hx]
    · simp [h]
    · rintro a b d e rest' rfl -
      exact hne rfl
  unfold escape
  split
  · next hc => exact hescaped '"' (by rw [hc]; rfl) (by decide)
  split
  · next hc => exact hescaped '\\' (by rw [hc]; rfl) (by decide)
  split
  · next hc => exact hescaped 'n' (by rw [hc]; rfl) (by decide)
  split
  · next hc => exact hescaped 'r' (by rw [hc]; rfl) (by decide)
  split
  · next hc => exact hescaped 't' (by rw [hc]; rfl) (by decide)
  split
  · next hc => exact hescaped 'b' (by rw [hc]; rfl) (by decide)
  split
  · next hc => exact hescaped 'f' (by rw [hc]; rfl) (by decide)
  split
  · next hcontrol =>
    have hsmall : c.toNat < 32 := hcontrol
    have hhigh : isHigh c.toNat = false := by simp [isHigh]; omega
    have hlow : isLow c.toNat = false := by simp [isLow]; omega
    simp only [List.cons_append, List.nil_append]
    rw [stringBody?, hex4?_control hsmall]
    simp [hhigh, hlow, h]
  · next hquote hslash _ _ _ _ _ hcontrol =>
    rw [List.singleton_append, stringBody?]
    · simp [hcontrol, hslash, h]
    all_goals simp [hquote, hslash]

theorem stringBody?_flatMap (cs rest : List Char) (n : Nat) :
    stringBody? (n + cs.length + 1) (cs.flatMap escape ++ '"' :: rest) = some (cs, rest) := by
  induction cs with
  | nil => rfl
  | cons c cs ih =>
    rw [List.flatMap_cons, List.append_assoc, List.length_cons, ← Nat.add_assoc]
    exact stringBody?_escape c ih

theorem length_le_flatMap (cs : List Char) : cs.length ≤ (cs.flatMap escape).length := by
  induction cs with
  | nil => exact Nat.le_refl _
  | cons c cs ih =>
    have hpos : 0 < (escape c).length := by
      unfold escape
      repeat' split
      all_goals exact Nat.succ_pos _
    rw [List.flatMap_cons, List.length_append, List.length_cons]
    omega

theorem string?_quoted (s : String) (rest : List Char) :
    string? (quoted s ++ rest) = some (s, rest) := by
  have hlength := length_le_flatMap s.toList
  obtain ⟨k, hk⟩ : ∃ k, (s.toList.flatMap escape ++ '"' :: rest).length + 1 =
      k + s.toList.length + 1 := by
    refine ⟨(s.toList.flatMap escape).length + rest.length + 1 - s.toList.length, ?_⟩
    rw [List.length_append, List.length_cons]
    omega
  have hquoted : quoted s ++ rest = '"' :: (s.toList.flatMap escape ++ '"' :: rest) := by
    simp [quoted]
  rw [hquoted, string?, hk, stringBody?_flatMap]
  simp

/-! ## Whole numbers -/

namespace Numeral

theorem digits?_append {ds : List Char} (hne : ds ≠ []) (hds : ∀ c ∈ ds, c.isDigit)
    (hrest : Stencil.Numeral.NoDigit rest) : digits? (ds ++ rest) = some (ds, rest) := by
  rw [digits?, Stencil.Numeral.span_digits hds hrest]
  split
  · next heq =>
    cases heq
    exact absurd rfl hne
  · rfl

theorem toDigits_ne_zero (n : Nat) (c : Char) (cs : List Char) :
    Nat.toDigits 10 n ≠ '0' :: c :: cs := by
  have hfirst : ∀ n, 0 < n → (Nat.toDigits 10 n).head? ≠ some '0' := by
    intro n
    induction n using Nat.strongRecOn with
    | ind n ih =>
      intro hn
      by_cases hsmall : n < 10
      · rw [Nat.toDigits_of_lt_base hsmall]
        have hdigit : ∀ k < 10, 0 < k → [k.digitChar].head? ≠ some '0' := by decide
        exact hdigit n hsmall hn
      · rw [Nat.toDigits_of_base_le (by decide) (Nat.not_lt.mp hsmall)]
        have hhead := ih (n / 10) (by omega) (by omega)
        cases hdigits : Nat.toDigits 10 (n / 10) with
        | nil => exact absurd hdigits Nat.toDigits_ne_nil
        | cons d ds =>
          rw [hdigits] at hhead
          exact hhead
  intro h
  cases n with
  | zero => cases h
  | succ n =>
    refine hfirst (n + 1) (Nat.succ_pos n) ?_
    rw [h]
    rfl

theorem whole?_toDigits (n : Nat) (hrest : Stencil.Numeral.NoDigit rest) :
    whole? (Nat.toDigits 10 n ++ rest) = some (Nat.toDigits 10 n, rest) := by
  rw [whole?, digits?_append Nat.toDigits_ne_nil
    (fun c => Nat.isDigit_of_mem_toDigits (by decide) (by decide)) hrest]
  split
  · next heq => exact absurd (Prod.mk.inj (Option.some.inj heq)).1 (toDigits_ne_zero n _ _)
  · rfl

def ofInt (k : Int) : Numeral := ⟨decide (k < 0), Nat.toDigits 10 k.natAbs, none, none⟩

theorem read?_wholeText (k : Int) (hrest : Separates rest) :
    read? (Number.wholeText k ++ rest) = some (ofInt k, rest) := by
  have hdigit : Stencil.Numeral.NoDigit rest := fun c hc => isDigit_of_isPart (hrest c hc).1
  have hne : ∀ d, Identifier.isPart d = true → rest.head? ≠ some d := by
    intro d hd hhead
    have hpart := (hrest d hhead).1
    rw [hd] at hpart
    cases hpart
  have hfraction : fraction? rest = some (none, rest) := by
    unfold fraction?
    split
    · exact absurd rfl (hne '.' (by decide))
    · rfl
  have hexponent : exponent? rest = some (none, rest) := by
    unfold exponent?
    split
    · exact absurd rfl (hne 'e' (by decide))
    · exact absurd rfl (hne 'E' (by decide))
    · rfl
  have hwhole := whole?_toDigits k.natAbs hdigit
  unfold Number.wholeText
  split
  · next hneg =>
    rw [List.cons_append, read?]
    simp [hwhole, hfraction, hexponent, ofInt, hneg]
  · next hpos =>
    have hminus : ∀ ds, Nat.toDigits 10 k.natAbs ++ rest ≠ '-' :: ds := by
      intro ds h
      cases hdigits : Nat.toDigits 10 k.natAbs with
      | nil => exact absurd hdigits Nat.toDigits_ne_nil
      | cons d ds' =>
        have hd : d.isDigit := Nat.isDigit_of_mem_toDigits (b := 10) (n := k.natAbs) (by decide)
          (by decide) (by rw [hdigits]; exact List.mem_cons_self)
        rw [hdigits, List.cons_append] at h
        rw [(List.cons.inj h).1] at hd
        cases hd
    unfold read?
    split
    next negative cs heq =>
    split at heq
    · next h => exact absurd h (hminus _)
    · cases heq
      simp [hwhole, hfraction, hexponent, ofInt, hpos]

theorem le_foldl (cs : List Char) (sum : Nat) :
    sum ≤ cs.foldl (fun n c => 10 * n + digitValue c) sum := by
  induction cs generalizing sum with
  | nil => exact Nat.le_refl _
  | cons c cs ih => exact Nat.le_trans (by omega) (ih (10 * sum + digitValue c))

theorem foldl_gather (cs : List Char) (sum : Nat)
    (h : cs.foldl (fun n c => 10 * n + digitValue c) sum ≤ most) :
    cs.foldl (fun (sum, dropped) c =>
      let next := 10 * sum + digitValue c
      if dropped = 0 && next ≤ most then (next, 0) else (sum, dropped + 1)) (sum, 0) =
    (cs.foldl (fun n c => 10 * n + digitValue c) sum, 0) := by
  induction cs generalizing sum with
  | nil => rfl
  | cons c cs ih =>
    rw [List.foldl_cons] at h
    have hnext := Nat.le_trans (le_foldl cs (10 * sum + digitValue c)) h
    rw [List.foldl_cons, List.foldl_cons, ← ih _ h]
    simp [hnext]

theorem gatherWhole_of_le (h : digitsValue cs ≤ most) : gatherWhole cs = (digitsValue cs, 0) :=
  foldl_gather cs 0 h

theorem toNumber?_ofInt (w : Whole) : (ofInt w.val).toNumber? = some (.whole w) := by
  have hlower := w.lower
  have hupper := w.upper
  have hvalue : digitsValue (Nat.toDigits 10 w.val.natAbs) = w.val.natAbs :=
    Nat.ofDigitChars_toDigits (by decide) (by decide)
  have hgather : gatherWhole (Nat.toDigits 10 w.val.natAbs) = (w.val.natAbs, 0) := by
    rw [gatherWhole_of_le, hvalue]
    rw [hvalue, most]
    omega
  rw [toNumber?, ofInt, hgather]
  by_cases hneg : w.val < 0
  · have hsigned : Number.ofSigned? (-(w.val.natAbs : Int)) = some (.whole w) := by
      have habs : -(w.val.natAbs : Int) = w.val := by omega
      rw [habs, Number.ofSigned?, dif_pos ⟨hlower, by omega⟩]
    have hne : w.val.natAbs ≠ 0 := by omega
    simp only [hneg, decide_true, Option.isNone_none, Bool.and_self, beq_self_eq_true, if_true,
      Bool.not_true, Bool.false_eq_true, if_false, hne, hsigned]
  · have hnat : Number.ofNat w.val.natAbs = .whole w := by
      refine congrArg Number.whole (Whole.ext ?_)
      show min (w.val.natAbs : Int) 18446744073709551615 = w.val
      omega
    simp only [hneg, decide_false, Option.isNone_none, Bool.and_self, beq_self_eq_true, if_true,
      Bool.not_false, hnat]

end Numeral

theorem number?_whole (w : Whole) (hrest : Separates rest) :
    number? (Number.wholeText w.val ++ rest) = some (.number (.whole w), rest) := by
  rw [number?, Numeral.read?_wholeText w.val hrest]
  simp [Numeral.toNumber?_ofInt]

end Json

/-! ## The characters of numbers -/

namespace Number

def IsNumeric (c : Char) : Prop := c.isDigit ∨ c = '.' ∨ c = '-' ∨ c = '+' ∨ c = 'e'

theorem IsNumeric.ne {c d : Char} (h : IsNumeric c) (hd : ¬ IsNumeric d) : c ≠ d := by
  rintro rfl
  exact hd h

instance (c : Char) : Decidable (IsNumeric c) := by
  unfold IsNumeric
  infer_instance

theorem isNumeric_toDigits (n : Nat) : ∀ c ∈ Nat.toDigits 10 n, IsNumeric c :=
  fun _ hc => .inl (Nat.isDigit_of_mem_toDigits (by decide) (by decide) hc)

theorem isNumeric_zeros (n : Nat) : ∀ c ∈ zeros n, IsNumeric c := by
  intro c hc
  rw [List.eq_of_mem_replicate hc]
  decide

theorem isNumeric_pointed {digits : List Char} (h : ∀ c ∈ digits, IsNumeric c) (whole : Int) :
    ∀ c ∈ pointed digits whole, IsNumeric c := by
  have hpoint : IsNumeric '.' := by decide
  have hzero : IsNumeric '0' := by decide
  unfold pointed
  split
  · simp only [List.cons_append, List.forall_mem_cons, List.forall_mem_append]
    exact ⟨hzero, hpoint, isNumeric_zeros _, h⟩
  · dsimp only
    split
    · simp only [List.forall_mem_append, List.forall_mem_cons]
      exact ⟨⟨h, isNumeric_zeros _⟩, hpoint, hzero, List.forall_mem_nil _⟩
    · simp only [List.forall_mem_append, List.forall_mem_cons]
      exact ⟨fun c hc => h c (List.mem_of_mem_take hc), hpoint, fun c hc => h c (List.mem_of_mem_drop hc)⟩

theorem isNumeric_mantissa {digits : List Char} (h : ∀ c ∈ digits, IsNumeric c) :
    ∀ c ∈ (match digits with
      | [] => []
      | [d] => [d]
      | d :: rest => d :: '.' :: rest), IsNumeric c := by
  split
  · exact nofun
  · exact h
  · rw [List.forall_mem_cons] at h ⊢
    rw [List.forall_mem_cons]
    exact ⟨h.1, by decide, h.2⟩

theorem isNumeric_scientific {digits : List Char} (h : ∀ c ∈ digits, IsNumeric c) (exponent : Int) :
    ∀ c ∈ scientific digits exponent, IsNumeric c := by
  unfold scientific
  simp only [List.forall_mem_append, List.forall_mem_cons]
  refine ⟨isNumeric_mantissa h, by decide, ?_, isNumeric_toDigits _⟩
  split <;> decide

theorem isNumeric_wholeText (k : Int) : ∀ c ∈ wholeText k, IsNumeric c := by
  unfold wholeText
  split
  · exact List.forall_mem_cons.mpr ⟨by decide, isNumeric_toDigits _⟩
  · exact isNumeric_toDigits _

theorem isNumeric_magnitudeText (x : Double) : ∀ c ∈ magnitudeText x, IsNumeric c := by
  have hdigits := isNumeric_toDigits x.shortest.coefficient
  unfold magnitudeText
  dsimp only
  split
  · exact isNumeric_pointed hdigits _
  · exact isNumeric_scientific hdigits _

theorem isNumeric_text (n : Number) : ∀ c ∈ n.text.toList, IsNumeric c := by
  cases n with
  | whole w =>
    rw [text, String.toList_ofList]
    exact isNumeric_wholeText w.val
  | double x =>
    rw [text, String.toList_ofList, doubleText]
    split
    · exact List.forall_mem_cons.mpr ⟨by decide, isNumeric_magnitudeText x⟩
    · exact isNumeric_magnitudeText x

theorem text_ne_nil (n : Number) : n.text.toList ≠ [] := by
  have hmagnitude : ∀ x, magnitudeText x ≠ [] := by
    intro x
    unfold magnitudeText
    dsimp only
    split
    · unfold pointed
      split
      · exact List.cons_ne_nil _ _
      · dsimp only
        split <;> simp
    · simp [scientific]
  cases n with
  | whole w =>
    rw [text, String.toList_ofList, wholeText]
    split
    · exact List.cons_ne_nil _ _
    · exact Nat.toDigits_ne_nil
  | double x =>
    rw [text, String.toList_ofList, doubleText]
    split
    · exact List.cons_ne_nil _ _
    · exact hmagnitude x

end Number

/-! ## Values -/

namespace Value

mutual

/-- How many arrays and objects stand inside of each other at most. -/
def nesting : Value → Nat
  | .array items => itemsNesting items + 1
  | .object fields => fieldsNesting fields + 1
  | _ => 0

def itemsNesting : List Value → Nat
  | [] => 0
  | v :: rest => max v.nesting (itemsNesting rest)

def fieldsNesting : List (String × Value) → Nat
  | [] => 0
  | (_, v) :: rest => max v.nesting (fieldsNesting rest)

end

end Value

namespace Json

theorem skip_cons {c : Char} (hc : isBlank c = false) (cs : List Char) : skip (c :: cs) = c :: cs :=
  List.dropWhile_cons_of_neg (by rw [hc]; decide)

theorem value?_number {c : Char} (hc : c.isDigit ∨ c = '-') (n levels : Nat) (cs : List Char) :
    value? (n + 1) levels (c :: cs) = number? (c :: cs) := by
  have hne : ∀ d : Char, d.isDigit = false → d ≠ '-' → c ≠ d := by
    rintro d hd hminus rfl
    rcases hc with hc | hc
    · rw [hd] at hc
      cases hc
    · exact hminus hc
  have hblank : isBlank c = false := by
    simp [isBlank, hne ' ' (by decide) (by decide), hne '\t' (by decide) (by decide),
      hne '\n' (by decide) (by decide), hne '\r' (by decide) (by decide)]
  rw [value?, skip_cons hblank]
  split
  all_goals first
    | rfl
    | next heq => exact absurd (List.cons.inj heq).1 (hne _ (by decide) (by decide))

theorem wholeText_head (k : Int) : ∃ c cs, Number.wholeText k = c :: cs ∧ (c.isDigit ∨ c = '-') := by
  unfold Number.wholeText
  split
  · exact ⟨'-', _, rfl, .inr rfl⟩
  · obtain ⟨c, cs, hdigits⟩ := List.exists_cons_of_ne_nil (Nat.toDigits_ne_nil (n := k.natAbs) (b := 10))
    refine ⟨c, cs, hdigits, .inl ?_⟩
    exact Nat.isDigit_of_mem_toDigits (b := 10) (n := k.natAbs) (by decide) (by decide)
      (by rw [hdigits]; exact List.mem_cons_self)

theorem isBlank_of_isNumeric {c : Char} (h : Number.IsNumeric c) : isBlank c = false := by
  simp [isBlank, h.ne (d := ' ') (by decide), h.ne (d := '\t') (by decide), h.ne (d := '\n') (by decide),
    h.ne (d := '\r') (by decide)]

theorem text_head (v : Value) : ∃ c cs, text v = c :: cs ∧ isBlank c = false ∧ c ≠ ']' := by
  cases v with
  | null => exact ⟨_, _, rfl, by decide, by decide⟩
  | bool b => cases b <;> exact ⟨_, _, rfl, by decide, by decide⟩
  | number k =>
    obtain ⟨c, cs, hcs⟩ := List.exists_cons_of_ne_nil k.text_ne_nil
    have hc := k.isNumeric_text c (by rw [hcs]; exact List.mem_cons_self)
    exact ⟨c, cs, by rw [text, hcs], isBlank_of_isNumeric hc, hc.ne (by decide)⟩
  | string s => exact ⟨_, _, rfl, by decide, by decide⟩
  | array items => exact ⟨_, _, rfl, by decide, by decide⟩
  | object fields => exact ⟨_, _, rfl, by decide, by decide⟩

theorem text_last (v : Value) : ∀ cs rest, text v = cs ++ rest → (∀ c ∈ rest, isBlank c) → rest = [] := by
  have hlast : ∃ cs c, text v = cs ++ [c] ∧ isBlank c = false := by
    cases v with
    | null => exact ⟨['n', 'u', 'l'], 'l', rfl, by decide⟩
    | bool b =>
      cases b with
      | true => exact ⟨['t', 'r', 'u'], 'e', rfl, by decide⟩
      | false => exact ⟨['f', 'a', 'l', 's'], 'e', rfl, by decide⟩
    | number k =>
      have happend := List.dropLast_concat_getLast k.text_ne_nil
      refine ⟨_, _, happend.symm, isBlank_of_isNumeric (k.isNumeric_text _ ?_)⟩
      exact List.getLast_mem _
    | string s => exact ⟨'"' :: s.toList.flatMap escape, '"', rfl, by decide⟩
    | array items => exact ⟨'[' :: itemsText items, ']', rfl, by decide⟩
    | object fields => exact ⟨'\x7b' :: fieldsText fields, '\x7d', rfl, by decide⟩
  obtain ⟨us, c, htext, hc⟩ := hlast
  intro cs rest h hrest
  by_contra hne
  rw [← List.dropLast_concat_getLast hne, ← List.append_assoc, htext] at h
  have hsame := (List.append_inj' h rfl).2
  rw [hrest _ (by rw [(List.cons.inj hsame).1]; exact List.getLast_mem hne)] at hc
  cases hc

theorem items?_comma {v : Value} (h : value? n levels cs = some (v, ',' :: rest)) :
    items? (n + 1) levels cs = (items? n levels rest).map fun (vs, rest) => (v :: vs, rest) := by
  have hskip : skip (',' :: rest) = ',' :: rest := rfl
  rw [items?, h]
  simp only [Option.bind_eq_bind, Option.bind_some, hskip]
  cases items? n levels rest <;> rfl

theorem items?_last {v : Value} (h : value? n levels cs = some (v, ']' :: rest)) :
    items? (n + 1) levels cs = some ([v], rest) := by
  rw [items?, h]
  rfl

theorem fields?_entry {key : String} {v : Value} {found : Dict Value} {us : List Char}
    (h : value? n levels cs = some (v, us)) :
    fields? (n + 1) levels found (quoted key ++ ':' :: cs) =
      match skip us with
      | ',' :: rest => fields? n levels (found.insert key v) rest
      | '\x7d' :: rest => some (found.insert key v, rest)
      | _ => none := by
  have hquoted : skip (quoted key ++ ':' :: cs) = quoted key ++ ':' :: cs := rfl
  have hcolon : skip (':' :: cs) = ':' :: cs := rfl
  rw [fields?, hquoted, string?_quoted]
  simp only [Option.bind_eq_bind, Option.bind_some, hcolon, h]
  rfl

theorem value?_quoted (s : String) (rest : List Char) :
    value? (n + 1) levels (quoted s ++ rest) = some (.string s, rest) := by
  have hvalue : value? (n + 1) levels (quoted s ++ rest) =
      (string? (quoted s ++ rest)).map fun r => (.string r.1, r.2) := by
    rw [value?]
    rfl
  rw [hvalue, string?_quoted]
  rfl

/-- With this much fuel the text of a value is read as the value, and so are those of items and entries. -/
structure ReadAt (n : Nat) : Prop where
  value : ∀ {levels : Nat} {v : Value} (rest : List Char), v.WellFormed → v.Within Number.IsWhole →
    v.nesting ≤ levels → (text v).length ≤ n → Separates rest →
    value? n levels (text v ++ rest) = some (v, rest)
  items : ∀ {levels : Nat} {vs : List Value} (rest : List Char), vs ≠ [] → Value.AllWellFormed vs →
    Value.ItemsWithin Number.IsWhole vs → Value.itemsNesting vs ≤ levels → (itemsText vs).length < n →
    items? n levels (itemsText vs ++ ']' :: rest) = some (vs, rest)
  fields : ∀ {levels : Nat} {fs : Dict Value} (found : Dict Value) (rest : List Char), fs ≠ [] →
    (found ++ fs).Sorted → Value.FieldsWellFormed fs → Value.FieldsWithin Number.IsWhole fs →
    Value.fieldsNesting fs ≤ levels → (fieldsText fs).length < n →
    fields? n levels found (fieldsText fs ++ '\x7d' :: rest) = some (found ++ fs, rest)

theorem value?_array {vs : List Value} {c : Char} {us : List Char}
    (hc : isBlank c = false) (hne : c ≠ ']')
    (h : items? n levels (c :: us) = some (vs, rest)) :
    value? (n + 1) (levels + 1) ('[' :: c :: us) = some (.array vs, rest) := by
  rw [value?_bracket (skip_cons (by decide) _), if_neg (Nat.succ_ne_zero _), skip_cons hc, Nat.add_sub_cancel]
  split
  · next heq => exact absurd (List.cons.inj heq).1 hne
  · rw [h]
    rfl

theorem value?_object {fs : Dict Value} {us : List Char}
    (h : fields? n levels [] ('"' :: us) = some (fs, rest)) :
    value? (n + 1) (levels + 1) ('\x7b' :: '"' :: us) = some (.object fs, rest) := by
  rw [value?_brace (skip_cons (by decide) _), if_neg (Nat.succ_ne_zero _), skip_cons (by decide),
    Nat.add_sub_cancel, h]
  rfl

theorem itemsText_cons (v w : Value) (vs : List Value) :
    itemsText (v :: w :: vs) = text v ++ ',' :: itemsText (w :: vs) := by
  rw [itemsText]
  exact nofun

theorem fieldsText_cons (key : String) (v : Value) (f : String × Value) (fs : Dict Value) :
    fieldsText ((key, v) :: f :: fs) = quoted key ++ ':' :: (text v ++ ',' :: fieldsText (f :: fs)) := by
  rw [fieldsText, List.append_assoc, List.cons_append]
  exact nofun

theorem readAt_value (ih : ReadAt n) {v : Value} (rest : List Char) (hformed : v.WellFormed)
    (hwhole : v.Within Number.IsWhole) (hnesting : v.nesting ≤ levels)
    (hlength : (text v).length ≤ n + 1) (hrest : Separates rest) :
    value? (n + 1) levels (text v ++ rest) = some (v, rest) := by
  cases v with
  | null => rfl
  | bool b => cases b <;> rfl
  | number k =>
    obtain ⟨w, rfl⟩ : ∃ w, k = .whole w := by
      cases k with
      | whole w => exact ⟨w, rfl⟩
      | double x => exact hwhole.elim
    obtain ⟨c, cs, hcs, hc⟩ := wholeText_head w.val
    have hnumber := number?_whole w hrest
    rw [text, Number.text, String.toList_ofList]
    rw [hcs, List.cons_append] at hnumber ⊢
    rw [value?_number hc, hnumber]
  | string s => exact value?_quoted s rest
  | array vs =>
    obtain ⟨levels, rfl⟩ : ∃ k, levels = k + 1 := by
      rw [Value.nesting] at hnesting
      exact ⟨levels - 1, by omega⟩
    cases vs with
    | nil => rfl
    | cons v vs =>
      rw [text, List.length_append, List.length_cons, List.length_singleton] at hlength
      rw [Value.nesting] at hnesting
      have hitems := ih.items rest (List.cons_ne_nil v vs) hformed hwhole
        (Nat.le_of_succ_le_succ hnesting) (by omega)
      obtain ⟨c, us, hcs, hc, hne⟩ := text_head v
      obtain ⟨us', hfirst⟩ : ∃ us', itemsText (v :: vs) = c :: us' := by
        cases vs with
        | nil => exact ⟨us, hcs⟩
        | cons w vs => exact ⟨_, by rw [itemsText_cons, hcs, List.cons_append]⟩
      rw [hfirst, List.cons_append] at hitems
      rw [text, hfirst, List.cons_append, List.cons_append, List.append_assoc, List.singleton_append]
      exact value?_array hc hne hitems
  | object fs =>
    obtain ⟨levels, rfl⟩ : ∃ k, levels = k + 1 := by
      rw [Value.nesting] at hnesting
      exact ⟨levels - 1, by omega⟩
    cases fs with
    | nil => rfl
    | cons f fs =>
      obtain ⟨key, v⟩ := f
      rw [text, List.length_append, List.length_cons, List.length_singleton] at hlength
      rw [Value.nesting] at hnesting
      have hfields := ih.fields [] rest (List.cons_ne_nil (key, v) fs) hformed.1
        hformed.2 hwhole (Nat.le_of_succ_le_succ hnesting) (by omega)
      obtain ⟨us, hfirst⟩ : ∃ us, fieldsText ((key, v) :: fs) = '"' :: us := by
        cases fs with
        | nil => exact ⟨_, rfl⟩
        | cons w fs => exact ⟨_, rfl⟩
      rw [hfirst, List.cons_append] at hfields
      rw [text, hfirst, List.cons_append, List.cons_append, List.append_assoc, List.singleton_append]
      exact value?_object hfields

theorem readAt_items (ih : ReadAt n) {vs : List Value} (rest : List Char) (hne : vs ≠ [])
    (hformed : Value.AllWellFormed vs) (hwhole : Value.ItemsWithin Number.IsWhole vs)
    (hnesting : Value.itemsNesting vs ≤ levels) (hlength : (itemsText vs).length < n + 1) :
    items? (n + 1) levels (itemsText vs ++ ']' :: rest) = some (vs, rest) := by
  obtain ⟨v, vs, rfl⟩ := List.exists_cons_of_ne_nil hne
  rw [Value.itemsNesting] at hnesting
  cases vs with
  | nil =>
    rw [itemsText] at hlength ⊢
    exact items?_last (ih.value _ hformed.1 hwhole.1 (by omega) (by omega) (IsSign.rightBracket.separates _))
  | cons w vs =>
    rw [itemsText_cons, List.length_append, List.length_cons] at hlength
    have hvalue := ih.value (',' :: (itemsText (w :: vs) ++ ']' :: rest)) hformed.1 hwhole.1
      (Nat.le_trans (Nat.le_max_left _ _) hnesting) (by omega) (IsSign.comma.separates _)
    have hitems := ih.items rest (List.cons_ne_nil w vs) hformed.2 hwhole.2
      (Nat.le_trans (Nat.le_max_right _ _) hnesting) (by omega)
    rw [itemsText_cons, List.append_assoc, List.cons_append, items?_comma hvalue, hitems]
    rfl

theorem insert_last {found : Dict Value} {key : String} (v : Value)
    (h : ∀ entry ∈ found, compare entry.1 key = .lt) : found.insert key v = found ++ [(key, v)] := by
  induction found with
  | nil => rfl
  | cons entry found ih =>
    rw [List.forall_mem_cons] at h
    have hgt : compare key entry.1 = .gt := Std.OrientedCmp.gt_of_lt h.1
    rw [Dict.insert, hgt, List.cons_append, ← ih h.2]

theorem readAt_fields (ih : ReadAt n) {fs : Dict Value} (found : Dict Value) (rest : List Char)
    (hne : fs ≠ []) (hsorted : (found ++ fs).Sorted) (hformed : Value.FieldsWellFormed fs)
    (hwhole : Value.FieldsWithin Number.IsWhole fs) (hnesting : Value.fieldsNesting fs ≤ levels)
    (hlength : (fieldsText fs).length < n + 1) :
    fields? (n + 1) levels found (fieldsText fs ++ '\x7d' :: rest) = some (found ++ fs, rest) := by
  obtain ⟨⟨key, v⟩, fs, rfl⟩ := List.exists_cons_of_ne_nil hne
  have hinsert : found.insert key v = found ++ [(key, v)] :=
    insert_last v fun entry hentry => (List.pairwise_append.mp hsorted).2.2 entry hentry _ List.mem_cons_self
  rw [Value.fieldsNesting] at hnesting
  cases fs with
  | nil =>
    rw [fieldsText, List.length_append, List.length_cons] at hlength
    have hvalue := ih.value ('\x7d' :: rest) hformed.1 hwhole.1
      (Nat.le_trans (Nat.le_max_left _ _) hnesting) (by omega) (IsSign.rightBrace.separates _)
    rw [fieldsText, List.append_assoc, List.cons_append, fields?_entry hvalue, ← hinsert]
    rfl
  | cons f fs =>
    rw [fieldsText_cons, List.length_append, List.length_cons, List.length_append, List.length_cons]
      at hlength
    have hvalue := ih.value (',' :: (fieldsText (f :: fs) ++ '\x7d' :: rest)) hformed.1 hwhole.1
      (Nat.le_trans (Nat.le_max_left _ _) hnesting) (by omega) (IsSign.comma.separates _)
    have happend : found ++ (key, v) :: f :: fs = found.insert key v ++ f :: fs := by
      rw [hinsert, List.append_assoc, List.singleton_append]
    rw [happend] at hsorted ⊢
    have hfields := ih.fields _ rest (List.cons_ne_nil f fs) hsorted hformed.2 hwhole.2
      (Nat.le_trans (Nat.le_max_right _ _) hnesting) (by omega)
    rw [fieldsText_cons, List.append_assoc, List.cons_append, List.append_assoc, List.cons_append,
      fields?_entry hvalue]
    exact hfields

theorem readAt : ∀ n, ReadAt n
  | 0 => by
    refine ⟨fun {_ v} _ _ _ _ hlength _ => ?_, fun _ _ _ _ _ => nofun, fun _ _ _ _ _ _ _ => nofun⟩
    obtain ⟨c, cs, hcs, -⟩ := text_head v
    rw [hcs] at hlength
    cases hlength
  | n + 1 => ⟨readAt_value (readAt n), readAt_items (readAt n), readAt_fields (readAt n)⟩

theorem read?_text {v : Value} (hformed : v.WellFormed) (hwhole : v.Within Number.IsWhole)
    (hnesting : v.nesting ≤ 127) : read? (String.ofList (text v)) = some v := by
  have hvalue := (readAt (2 * (text v).length + 2)).value [] hformed hwhole hnesting (by omega)
    nofun
  rw [List.append_nil] at hvalue
  rw [read?, String.toList_ofList, hvalue]
  rfl

end Json

end Stencil

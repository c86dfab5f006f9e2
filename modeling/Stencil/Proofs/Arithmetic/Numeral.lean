import Mathlib.Data.List.TakeDrop
import Stencil.Builtin
import Stencil.Proofs.Arithmetic.Brink
/-!
# Numerals in front of other text

A numeral is a sign, digits and more digits behind a point. The longest one in front of a text is what the
text counts as where an integer is made of it. It is read as the nearest double.
-/

namespace Stencil

open Double

structure Numeral where
  sign : List Char
  whole : List Char
  fraction : List Char
  isSign : sign = [] ∨ sign = ['-'] ∨ sign = ['+']
  whole_digits : ∀ c ∈ whole, c.isDigit
  fraction_digits : ∀ c ∈ fraction, c.isDigit
  digits_ne : whole ++ fraction ≠ []

namespace Numeral

def point (n : Numeral) : List Char := if n.fraction = [] then [] else '.' :: n.fraction

def chars (n : Numeral) : List Char := n.sign ++ (n.whole ++ n.point)

def negative (n : Numeral) : Bool := n.sign = ['-']

def coefficient (n : Numeral) : Nat := digitsValue (n.whole ++ n.fraction)

def scale (n : Numeral) : Nat := Nat.pow 10 n.fraction.length

def NoDigit (rest : List Char) : Prop := ∀ c ∈ rest.head?, c.isDigit = false

def Ends (n : Numeral) (rest : List Char) : Prop :=
  NoDigit rest ∧ (n.fraction = [] → ∀ tail, rest = '.' :: tail → NoDigit tail)

variable {n : Numeral} {ds rest : List Char}

theorem takeWhile_digits (hds : ∀ c ∈ ds, c.isDigit) (hrest : NoDigit rest) :
    (ds ++ rest).takeWhile Char.isDigit = ds := by
  rw [List.takeWhile_append_of_pos hds]
  cases rest with
  | nil => simp
  | cons c rest =>
    have hc : c.isDigit = false := hrest c rfl
    simp [hc]

theorem span_digits (hds : ∀ c ∈ ds, c.isDigit) (hrest : NoDigit rest) :
    (ds ++ rest).span Char.isDigit = (ds, rest) := by
  have htake := takeWhile_digits hds hrest
  have happend := List.takeWhile_append_dropWhile (p := Char.isDigit) (l := ds ++ rest)
  rw [htake, List.append_cancel_left_eq] at happend
  rw [List.span_eq_takeWhile_dropWhile, htake, happend]

theorem noDigit_point (h : n.Ends rest) : NoDigit (n.point ++ rest) := by
  unfold point
  split
  · exact h.1
  · rintro c ⟨⟩
    rfl

theorem fraction_point (h : n.Ends rest) : (match n.point ++ rest with
    | '.' :: tail =>
      match tail.takeWhile Char.isDigit with
      | [] => []
      | ds => '.' :: ds
    | _ => []) = n.point := by
  unfold point
  by_cases hnil : n.fraction = []
  · rw [if_pos hnil, List.nil_append]
    split
    · next tail =>
      have htail := h.2 hnil tail rfl
      have hnone : ([] ++ tail).takeWhile Char.isDigit = [] := takeWhile_digits nofun htail
      rw [List.nil_append] at hnone
      rw [hnone]
    · rfl
  · rw [if_neg hnil, List.cons_append]
    split
    · next tail heq =>
      rw [← (List.cons.inj heq).2, takeWhile_digits n.fraction_digits h.1]
      split
      · next hempty => exact absurd hempty hnil
      · rfl
    · next hother => exact absurd rfl (hother _)

theorem numericPart_unsigned (n : Numeral) (h : n.Ends rest) (sign : List Char) :
    (let (whole, rest) := (n.whole ++ (n.point ++ rest)).span Char.isDigit
      let fraction := match rest with
        | '.' :: rest =>
          match rest.takeWhile Char.isDigit with
          | [] => []
          | ds => '.' :: ds
        | _ => []
      sign ++ whole ++ fraction) = sign ++ (n.whole ++ n.point) := by
  have hfraction := fraction_point h
  rw [span_digits n.whole_digits (noDigit_point h)]
  dsimp only
  rw [hfraction, List.append_assoc]

theorem unsigned_head (n : Numeral) :
    ∃ c cs, n.whole ++ n.point = c :: cs ∧ (c.isDigit ∨ c = '.') := by
  cases hwhole : n.whole with
  | nil =>
    have hne : n.fraction ≠ [] := by
      have := n.digits_ne
      rwa [hwhole, List.nil_append] at this
    exact ⟨'.', n.fraction, by rw [List.nil_append, point, if_neg hne], .inr rfl⟩
  | cons c cs =>
    have hc := n.whole_digits c (by rw [hwhole]; exact List.mem_cons_self)
    exact ⟨c, cs ++ n.point, rfl, .inl hc⟩

theorem ne_sign {c : Char} (hc : c.isDigit ∨ c = '.') : c ≠ '-' ∧ c ≠ '+' := by
  rcases hc with hc | rfl
  · constructor <;> rintro rfl <;> cases hc
  · decide

theorem numericPart_chars (n : Numeral) (h : n.Ends rest) : numericPart (n.chars ++ rest) = n.chars := by
  have hunsigned := numericPart_unsigned n h
  have hassoc : n.chars ++ rest = n.sign ++ (n.whole ++ (n.point ++ rest)) := by simp [chars]
  rw [hassoc]
  unfold chars
  rcases n.isSign with hsign | hsign | hsign
  · obtain ⟨c, cs, hcs, hc⟩ := n.unsigned_head
    obtain ⟨hminus, hplus⟩ := ne_sign hc
    have hsplit : n.whole ++ (n.point ++ rest) = c :: (cs ++ rest) := by
      rw [← List.append_assoc, hcs, List.cons_append]
    have hplain := hunsigned []
    rw [hsign, List.nil_append]
    rw [hsplit] at hplain ⊢
    unfold numericPart
    split
    next sign tail heq =>
    split at heq
    · next hc => exact absurd (List.cons.inj hc).1 hminus
    · next hc => exact absurd (List.cons.inj hc).1 hplus
    · cases heq
      exact hplain
  · rw [hsign]
    exact hunsigned ['-']
  · rw [hsign]
    exact hunsigned ['+']

/-! ## Reading -/

theorem ends_nil (n : Numeral) : n.Ends [] := ⟨nofun, fun _ _ h => nomatch h⟩

theorem readDecimal?_chars (n : Numeral) :
    readDecimal? (n.whole ++ n.point) = some ⟨n.coefficient, -n.fraction.length⟩ := by
  have hwhole := span_digits n.whole_digits (noDigit_point n.ends_nil)
  have hfraction := span_digits n.fraction_digits n.ends_nil.1
  have hdigits := n.digits_ne
  have hexponent : readExponent? [] = some 0 := rfl
  rw [List.append_nil] at hwhole hfraction
  unfold readDecimal?
  rw [hwhole]
  dsimp only
  split
  · next tail hpoint =>
    have htail : tail = n.fraction := by
      unfold point at hpoint
      split at hpoint
      · cases hpoint
      · exact (List.cons.inj hpoint).2.symm
    rw [htail, hfraction]
    dsimp only
    have hempty : (n.whole.isEmpty && n.fraction.isEmpty) = false := by
      simpa [Bool.and_eq_false_iff] using hdigits
    rw [hexponent, hempty]
    simp [coefficient]
  · next hnone =>
    have hnil : n.fraction = [] := by
      by_contra hne
      exact hnone n.fraction (if_neg hne)
    have hpoint : n.point = [] := if_pos hnil
    rw [hnil, List.append_nil] at hdigits
    rw [hpoint]
    simp [coefficient, hnil, hdigits, hexponent]

def splitSign (cs : List Char) : Bool × List Char :=
  match cs with
  | '-' :: rest => (true, rest)
  | '+' :: rest => (false, rest)
  | _ => (false, cs)

theorem splitSign_chars (n : Numeral) : splitSign n.chars = (n.negative, n.whole ++ n.point) := by
  rw [chars, negative]
  rcases n.isSign with hsign | hsign | hsign
  · obtain ⟨c, cs, hcs, hc⟩ := n.unsigned_head
    obtain ⟨hminus, hplus⟩ := ne_sign hc
    rw [hsign, List.nil_append, hcs]
    unfold splitSign
    split
    · next hc => exact absurd (List.cons.inj hc).1 hminus
    · next hc => exact absurd (List.cons.inj hc).1 hplus
    · rfl
  · rw [hsign]
    rfl
  · rw [hsign]
    rfl

theorem read?_chars (n : Numeral) : Double.read? n.chars = some
    ((ofDecimal? n.negative ⟨n.coefficient, -n.fraction.length⟩).elim
      (.infinite n.negative) .finite) := by
  unfold Double.read?
  split
  next negative rest heq =>
  have hsplit : splitSign n.chars = (negative, rest) := heq
  rw [splitSign_chars] at hsplit
  obtain ⟨rfl, rfl⟩ := Prod.mk.inj hsplit
  rw [readDecimal?_chars]
  dsimp only
  cases ofDecimal? n.negative ⟨n.coefficient, -n.fraction.length⟩ <;> rfl

end Numeral

namespace Double

variable {num den : Nat}

theorem roundSteps_eq_zero (h : 2 * num < den) : roundSteps num den = 0 := by
  have hquotient : num / den = 0 := Nat.div_eq_of_lt (by omega)
  have hspare : spare 0 = 0 := rfl
  have hone : twoTo 0 = 1 := rfl
  rw [roundSteps, hquotient, hspare, hone, Nat.mul_one, Nat.mul_one, nearest, hquotient,
    Nat.mod_eq_of_lt (by omega), if_pos h]

theorem ofRatio?_zero (negative : Bool) (h : 2 * num < den) :
    ofRatio? negative num den = some (zero negative) := by
  have hround := roundSteps_eq_zero h
  have hlimit : roundSteps num den < limit := by
    rw [hround]
    exact limit_pos
  rw [ofRatio?, dif_pos hlimit]
  simp [zero, hround]

theorem lt_ten_pow {c f : Nat} (h : 400 + c.log2 < f) : 2 * (c * unit) < Nat.pow 10 f := by
  calc 2 * (c * unit) < twoTo (c.log2 + 1076) := by
        have hc := Nat.mul_lt_mul_of_pos_right (lt_twoTo_log2 c) unit_pos
        rw [twoTo_mul_unit] at hc
        have hdouble : twoTo (c.log2 + 1076) = twoTo (c.log2 + 1 + 1074) * 2 := twoTo_succ _
        omega
    _ ≤ twoTo (3 * f) := twoTo_le (by omega)
    _ = Nat.pow 8 f := Nat.pow_mul 2 3 f
    _ ≤ Nat.pow 10 f := Nat.pow_le_pow_left (by decide) f

theorem ofDecimal?_fraction (negative : Bool) (c f : Nat) :
    ofDecimal? negative ⟨c, -f⟩ = ofRatio? negative (c * unit) (Nat.pow 10 f) := by
  unfold ofDecimal?
  dsimp only
  split
  · next hc =>
    rw [hc, Nat.zero_mul, ofRatio?_zero negative (Nat.pow_pos (by decide))]
  split
  · omega
  split
  · rw [ofRatio?_zero negative (lt_ten_pow (by omega))]
  split
  · obtain rfl : f = 0 := by omega
    have hpower : Nat.pow 10 (-((0 : Nat) : Int)).toNat = 1 := rfl
    have hone : Nat.pow 10 0 = 1 := rfl
    rw [hpower, hone, Nat.mul_one]
  · rw [Int.neg_neg, Int.toNat_natCast]

/-! ## The signed range -/

theorem signed_le_limit : twoTo 63 * unit ≤ limit := by
  rw [twoTo_mul_unit]
  exact twoTo_le (by decide)

theorem clampSigned_whole (negative : Bool) (num den : Nat) :
    Number.clampSigned (((ofRatio? negative num den).elim (.infinite negative) .finite :
      Reading).whole 9223372036854775808) =
    Number.clampSigned
      (if negative then -(roundSteps num den / unit : Nat) else (roundSteps num den / unit : Nat)) := by
  have hpower : twoTo 63 = 9223372036854775808 := by decide
  apply Whole.ext
  unfold ofRatio?
  by_cases hlimit : roundSteps num den < limit
  · rw [dif_pos hlimit, Option.elim_some]
    simp only [Number.clampSigned, Reading.whole, trunc, ← Int.natCast_ediv]
    omega
  · rw [dif_neg hlimit, Option.elim_none]
    have hlarge : twoTo 63 ≤ roundSteps num den / unit :=
      (Nat.le_div_iff_mul_le unit_pos).mpr (Nat.le_trans signed_le_limit (Nat.not_lt.mp hlimit))
    simp only [Number.clampSigned, Reading.whole]
    cases negative with
    | false =>
      simp only [Bool.false_eq_true, if_false]
      omega
    | true =>
      simp only [if_true]
      omega

end Double

/-! ## Integers of texts -/

namespace Numeral

def signed (n : Numeral) (k : Nat) : Int := if n.negative then -k else k

def trunc (n : Numeral) : Int := n.signed (n.coefficient / n.scale)

def rounded (n : Numeral) : Int := n.signed (roundSteps (n.coefficient * unit) n.scale / unit)

theorem isAny_of_isDigit {c : Char} (hc : c.isDigit) : Blank.isAny c = false := by
  simp only [Char.isDigit, Bool.and_eq_true, decide_eq_true_eq, UInt32.le_iff_toNat_le, ge_iff_le] at hc
  change 48 ≤ c.toNat ∧ c.toNat ≤ 57 at hc
  rw [Bool.eq_false_iff]
  simp only [Blank.isAny, ne_eq, Bool.or_eq_true, Bool.and_eq_true, decide_eq_true_eq, beq_iff_eq]
  omega

theorem chars_head (n : Numeral) : ∃ c cs, n.chars = c :: cs ∧ Blank.isAny c = false := by
  rw [chars]
  rcases n.isSign with hsign | hsign | hsign
  · obtain ⟨c, cs, hcs, hc⟩ := n.unsigned_head
    refine ⟨c, cs, by rw [hsign, hcs, List.nil_append], ?_⟩
    rcases hc with hc | rfl
    · exact isAny_of_isDigit hc
    · decide
  · exact ⟨'-', _, by rw [hsign]; rfl, by decide⟩
  · exact ⟨'+', _, by rw [hsign]; rfl, by decide⟩

theorem trimStart_append {lead : List Char} (hlead : ∀ c ∈ lead, Blank.isAny c) (n : Numeral)
    (rest : List Char) : Blank.trimStart (lead ++ (n.chars ++ rest)) = n.chars ++ rest := by
  obtain ⟨c, cs, hcs, hc⟩ := n.chars_head
  rw [Blank.trimStart, List.dropWhile_append_of_pos hlead, hcs, List.cons_append,
    List.dropWhile_cons_of_neg (by rw [hc]; decide)]

/-- A text counts as the whole part of the double nearest to the numeral in front of it, or as the end of
the range that this is past. -/
theorem toInt_text {lead : List Char} (hlead : ∀ c ∈ lead, Blank.isAny c) {n : Numeral}
    (h : n.Ends rest) : Builtin.toInt (.string (String.ofList (lead ++ (n.chars ++ rest)))) =
      .ok (.number (.whole (Number.clampSigned n.rounded))) := by
  rw [Builtin.toInt, String.toList_ofList, trimStart_append hlead, n.numericPart_chars h, n.read?_chars,
    ofDecimal?_fraction]
  dsimp only
  rw [Value.ofSigned, clampSigned_whole]
  rfl

/-! ## Texts of whole numbers -/

variable {plus : List Char} {k : Int}

def ofWhole (k : Int) (hplus : plus = [] ∨ plus = ['+']) : Numeral where
  sign := if k < 0 then ['-'] else plus
  whole := Nat.toDigits 10 k.natAbs
  fraction := []
  isSign := by
    split
    · exact .inr (.inl rfl)
    · exact hplus.imp_right .inr
  whole_digits _ := Nat.isDigit_of_mem_toDigits (by decide) (by decide)
  fraction_digits _ h := absurd h List.not_mem_nil
  digits_ne := by
    rw [List.append_nil]
    exact Nat.toDigits_ne_nil

theorem chars_ofWhole (hplus : plus = [] ∨ plus = ['+']) (hk : plus = [] ∨ 0 ≤ k) :
    (ofWhole k hplus).chars = plus ++ Number.wholeText k := by
  have hpoint : (ofWhole k hplus).point = [] := if_pos rfl
  rw [chars, hpoint, List.append_nil]
  unfold ofWhole Number.wholeText
  dsimp only
  split
  · next hneg =>
    rw [hk.resolve_right (Int.not_le.mpr hneg)]
    rfl
  · rfl

theorem negative_ofWhole (hplus : plus = [] ∨ plus = ['+']) :
    (ofWhole k hplus).negative = decide (k < 0) := by
  unfold negative ofWhole
  dsimp only
  split
  · next hneg => simp [hneg]
  · next hneg => rcases hplus with rfl | rfl <;> simp [hneg]

theorem coefficient_ofWhole (hplus : plus = [] ∨ plus = ['+']) :
    (ofWhole k hplus).coefficient = k.natAbs := by
  have hdigits : digitsValue (Nat.toDigits 10 k.natAbs) = Nat.ofDigitChars 10 (Nat.toDigits 10 k.natAbs) 0 :=
    rfl
  rw [coefficient, ofWhole, List.append_nil, hdigits,
    Nat.ofDigitChars_toDigits (by decide) (by decide)]

theorem rounded_ofWhole (w : Whole) (hplus : plus = [] ∨ plus = ['+']) :
    (ofWhole w.val hplus).rounded = w.toDouble.trunc := by
  have hscale : (ofWhole w.val hplus).scale = 1 := rfl
  rw [rounded, signed, negative_ofWhole, coefficient_ofWhole, hscale]
  rfl

end Numeral

end Stencil

/-!
# Doubles

A double is a sign and a whole number of steps of 2^-1074, the smallest positive double. This makes
every operation a computation on whole numbers, followed by one rounding. A result past the largest
double is `none`: there is no infinity here, and nothing that is not a number.
-/

namespace Stencil

namespace Double

/-! ## Powers of two -/

def twoTo (n : Nat) : Nat := Nat.pow 2 n

theorem twoTo_pos (n : Nat) : 0 < twoTo n := Nat.two_pow_pos n

theorem twoTo_add (a b : Nat) : twoTo (a + b) = twoTo a * twoTo b := Nat.pow_add 2 a b

theorem twoTo_succ (n : Nat) : twoTo (n + 1) = twoTo n * 2 := Nat.pow_succ 2 n

theorem twoTo_le {a b : Nat} (h : a ≤ b) : twoTo a ≤ twoTo b :=
  Nat.pow_le_pow_right (by decide) h

theorem twoTo_lt {a b : Nat} (h : a < b) : twoTo a < twoTo b :=
  Nat.pow_lt_pow_right (by decide) h

theorem twoTo_dvd {a b : Nat} (h : a ≤ b) : twoTo a ∣ twoTo b := Nat.pow_dvd_pow 2 h

theorem log2_twoTo (n : Nat) : (twoTo n).log2 = n := Nat.log2_two_pow

theorem log2_lt_iff {n k : Nat} (h : n ≠ 0) : n.log2 < k ↔ n < twoTo k := Nat.log2_lt h

theorem lt_twoTo_log2 (n : Nat) : n < twoTo (n.log2 + 1) := Nat.lt_log2_self

/-! ## Which magnitudes are doubles -/

def unit : Nat := twoTo 1074

/-- The first magnitude past the largest double, in steps. -/
def limit : Nat := twoTo 2098

theorem limit_pos : 0 < limit := twoTo_pos 2098

/-- A double keeps 53 binary digits. These are the low ones that a magnitude has to leave zero. -/
def spare (steps : Nat) : Nat := steps.log2 - 52

def Fits (steps : Nat) : Prop := steps < limit ∧ twoTo (spare steps) ∣ steps

instance : DecidablePred Fits := fun steps =>
  inferInstanceAs (Decidable (steps < limit ∧ twoTo (spare steps) ∣ steps))

end Double

structure Double where
  negative : Bool
  /-- The magnitude, as a multiple of 2^-1074. -/
  steps : Nat
  fits : Double.Fits steps
deriving DecidableEq

namespace Double

/-- The exact value in steps. Both zeros have the value zero. -/
def signed (x : Double) : Int := if x.negative then -x.steps else x.steps

def neg (x : Double) : Double := { x with negative := !x.negative }

def isZero (x : Double) : Bool := x.steps == 0

/-! ## Rounding -/

/-- The whole number nearest to `num / den`. A tie goes to the even one. -/
def nearest (num den : Nat) : Nat :=
  let q := num / den
  let twice := 2 * (num % den)
  if twice < den then q
  else if den < twice then q + 1
  else if q % 2 = 0 then q else q + 1

/-- The magnitude with at most 53 binary digits nearest to `num / den` steps. -/
def roundSteps (num den : Nat) : Nat :=
  let s := spare (num / den)
  nearest num (den * twoTo s) * twoTo s

theorem nearest_le (num den : Nat) : nearest num den ≤ num / den + 1 := by
  unfold nearest
  dsimp only
  split
  · omega
  · split
    · omega
    · split <;> omega

theorem nearest_spare_le (num den : Nat) :
    nearest num (den * twoTo (spare (num / den))) ≤ twoTo 53 := by
  have hq : num / (den * twoTo (spare (num / den))) < twoTo 53 := by
    rw [← Nat.div_div_eq_div_mul]
    apply (Nat.div_lt_iff_lt_mul (twoTo_pos _)).mpr
    rw [← twoTo_add]
    refine Nat.lt_of_lt_of_le (lt_twoTo_log2 _) (twoTo_le ?_)
    unfold spare
    omega
  exact Nat.le_trans (nearest_le _ _) hq

theorem spare_dvd_of_le {r s : Nat} (h : r ≤ twoTo 53) :
    twoTo (spare (r * twoTo s)) ∣ r * twoTo s := by
  by_cases hr : r = twoTo 53
  · subst hr
    rw [← twoTo_add]
    apply twoTo_dvd
    simp only [spare, log2_twoTo]
    omega
  · refine Nat.dvd_trans (twoTo_dvd ?_) (Nat.dvd_mul_left (twoTo s) r)
    by_cases hz : r = 0
    · subst hz
      simp [spare]
    · have hlt : r * twoTo s < twoTo (53 + s) := by
        rw [twoTo_add]
        exact Nat.mul_lt_mul_of_pos_right (Nat.lt_of_le_of_ne h hr) (twoTo_pos s)
      have hne : r * twoTo s ≠ 0 := Nat.mul_ne_zero hz (Nat.ne_of_gt (twoTo_pos s))
      have := (log2_lt_iff hne).mpr hlt
      unfold spare
      omega

theorem fits_roundSteps {num den : Nat} (h : roundSteps num den < limit) :
    Fits (roundSteps num den) :=
  ⟨h, spare_dvd_of_le (nearest_spare_le num den)⟩

/-- The double nearest to `num / den` steps, unless that is past the largest one. -/
def ofRatio? (negative : Bool) (num den : Nat) : Option Double :=
  if h : roundSteps num den < limit then
    some { negative := negative, steps := roundSteps num den, fits := fits_roundSteps h }
  else none

def zero (negative : Bool) : Double :=
  ⟨negative, 0, limit_pos, Nat.dvd_zero _⟩

/-! ## Whole numbers -/

theorem roundSteps_one_le (n : Nat) :
    roundSteps n 1 ≤ twoTo (n.log2 + 1) + twoTo (spare n) := by
  unfold roundSteps
  simp only [Nat.div_one, Nat.one_mul]
  have h1 := nearest_le n (twoTo (spare n))
  have h2 : nearest n (twoTo (spare n)) * twoTo (spare n) ≤
      (n / twoTo (spare n) + 1) * twoTo (spare n) :=
    Nat.mul_le_mul_right _ h1
  have h3 : n / twoTo (spare n) * twoTo (spare n) ≤ n := Nat.div_mul_le_self _ _
  have h4 := lt_twoTo_log2 n
  rw [Nat.add_mul, Nat.one_mul] at h2
  omega

theorem add_twoTo_lt {a b m k : Nat} (ha : a ≤ m) (hb : b ≤ m) (h : m + 1 < k) :
    twoTo a + twoTo b < twoTo k := by
  have h1 : twoTo a ≤ twoTo m := twoTo_le ha
  have h2 : twoTo b ≤ twoTo m := twoTo_le hb
  have h3 : twoTo (m + 1) < twoTo k := twoTo_lt h
  rw [twoTo_succ] at h3
  omega

theorem log2_mul_twoTo_le {n a b : Nat} (h : n < twoTo a) : (n * twoTo b).log2 ≤ a + b := by
  by_cases hz : n * twoTo b = 0
  · rw [hz]
    exact Nat.zero_le _
  · have hlt : n * twoTo b < twoTo (a + b) := by
      rw [twoTo_add]
      exact Nat.mul_lt_mul_of_pos_right h (twoTo_pos b)
    exact Nat.le_of_lt ((log2_lt_iff hz).mpr hlt)

theorem roundSteps_whole_lt {n : Nat} (h : n < twoTo 65) : roundSteps (n * unit) 1 < limit := by
  have hlog : (n * unit).log2 ≤ 65 + 1074 := by
    unfold unit
    exact log2_mul_twoTo_le (b := 1074) h
  have hbound := add_twoTo_lt (k := 2098) (Nat.succ_le_succ hlog)
    (Nat.le_trans (Nat.sub_le _ 52) (Nat.le_succ_of_le hlog)) (by decide)
  unfold limit
  exact Nat.lt_of_le_of_lt (roundSteps_one_le _) hbound

def ofWhole (n : Int) (h : n.natAbs < twoTo 65) : Double :=
  { negative := decide (n < 0)
    steps := roundSteps (n.natAbs * unit) 1
    fits := fits_roundSteps (roundSteps_whole_lt h) }

def trunc (x : Double) : Int :=
  let whole : Int := x.steps / unit
  if x.negative then -whole else whole

/-- The nearest whole number. A half goes away from zero, and a zero keeps its sign. -/
def roundHalfAway (x : Double) : Option Double :=
  ofRatio? x.negative ((2 * x.steps + unit) / (2 * unit) * unit) 1

/-! ## Arithmetic -/

/-- A sum that cancels is the positive zero. Only two negative zeros add to the negative one. -/
def add (x y : Double) : Option Double :=
  let sum := x.signed + y.signed
  if sum = 0 then some (zero (x.negative && y.negative))
  else ofRatio? (decide (sum < 0)) sum.natAbs 1

def sub (x y : Double) : Option Double := x.add y.neg

def mul (x y : Double) : Option Double :=
  ofRatio? (x.negative != y.negative) (x.steps * y.steps) unit

def div (x y : Double) : Option Double :=
  if y.isZero then none
  else ofRatio? (x.negative != y.negative) (x.steps * unit) y.steps

/-- The remainder of the division toward zero, with the sign of the dividend. -/
def rem (x y : Double) : Option Double :=
  if y.isZero then none
  else ofRatio? x.negative (x.steps % y.steps) 1

def order (x y : Double) : Ordering := compare x.signed y.signed

/-! ## The shorter format of 24 binary digits -/

/-- The nearest number of the format with 24 binary digits, which are multiples of 2^-149 and lie
below 2^128. -/
def toShort (x : Double) : Option Double :=
  let s := max (x.steps.log2 - 23) 925
  let rounded := nearest x.steps (twoTo s) * twoTo s
  if rounded < twoTo 1202 then ofRatio? x.negative rounded 1 else none

end Double

end Stencil

import Stencil.Text.Identifier
/-!
# Where words begin

A word begins with a character that is no digit, no blank and no sign.
-/

namespace Stencil.Identifier

variable {c d : Char}

theorem not_isStart_of_isDigit (h : c.isDigit) : isStart c = false := by
  simp only [Char.isDigit, Bool.and_eq_true, decide_eq_true_eq, UInt32.le_iff_toNat_le, ge_iff_le] at h
  change 48 ≤ c.toNat ∧ c.toNat ≤ 57 at h
  have hcode : ∀ d : Char, d.toNat < 48 ∨ 57 < d.toNat → c ≠ d := by
    rintro d hd rfl
    omega
  have hascii : isAscii c := by
    simp only [isAscii, decide_eq_true_eq]
    omega
  have halpha : c.isAlpha = false := by
    delta Char.isAlpha Char.isUpper Char.isLower
    simp only [Bool.or_eq_false_iff, Bool.and_eq_false_iff, decide_eq_false_iff_not,
      UInt32.le_iff_toNat_le, ge_iff_le]
    change ¬ (65 ≤ c.toNat ∧ c.toNat ≤ 90) ∧ (¬ 97 ≤ c.toNat ∨ ¬ c.toNat ≤ 122)
    omega
  simp [isStart, halpha, hascii, hcode '_' (by decide), hcode '@' (by decide), hcode '$' (by decide)]

theorem isDigit_of_isStart (h : isStart c) : c.isDigit = false := by
  rw [Bool.eq_false_iff]
  intro hd
  rw [not_isStart_of_isDigit hd] at h
  cases h

theorem ne_of_isStart (h : isStart c) (hd : isStart d = false) : c ≠ d := by
  rintro rfl
  rw [h] at hd
  cases hd

end Stencil.Identifier

import BusBench.Binary64
import Mathlib.Algebra.Order.Field.Power
import Mathlib.Algebra.Order.Ring.Rat
import Mathlib.Data.Nat.Log
import Mathlib.Tactic.Positivity
import Mathlib.Tactic.Ring

namespace BusBench

namespace Binary64

variable {num den : Nat}

/-- The value of a binary number, if it has one. -/
def toRat? : Binary64 → Option ℚ
  | finite negative m e => some ((if negative then -1 else 1) * (m * 2 ^ e))
  | infinite _ | nan => none

/-- Rounding does not go beyond a whole number. -/
theorem roundDiv_le {q : Nat} (hden : 0 < den) (h : num ≤ den * q) : roundDiv num den ≤ q := by
  have hdiv : num / den ≤ q := Nat.div_le_of_le_mul h
  rcases Nat.lt_or_eq_of_le hdiv with hlt | heq
  · unfold roundDiv
    simp only
    split <;> omega
  · have hexact : num % den = 0 := by
      have hsplit := Nat.div_add_mod num den
      rw [heq] at hsplit
      omega
    simp [roundDiv, hexact, hden, heq]

theorem exponentOf_le (h : num ≤ den) : exponentOf num den ≤ -52 := by
  have hlog : Nat.log2 num ≤ Nat.log2 den := by
    rw [Nat.log2_eq_log_two, Nat.log2_eq_log_two]
    exact Nat.log_mono_right h
  unfold exponentOf
  simp only
  split <;> omega

/-- A fraction that is at most one is rounded to a number that is at most one. -/
theorem ofRatio_le_one (hden : 0 < den) (h : num ≤ den) :
    ∃ x, (ofRatio false num den).toRat? = some x ∧ 0 ≤ x ∧ x ≤ 1 := by
  by_cases hnum : num = 0
  · exact ⟨0, by simp [ofRatio, hnum, toRat?], le_rfl, zero_le_one⟩
  · obtain ⟨k, hk⟩ : ∃ k : Nat, exponentOf num den = -k :=
      ⟨(-exponentOf num den).toNat, by have := exponentOf_le h; omega⟩
    have hlow := exponentOf_le h
    have hscale : scale num den (-k) = (num * 2 ^ k, den) := by
      rw [scale, if_pos (by omega), neg_neg, Int.toNat_natCast]
      rfl
    have hround : roundDiv (num * 2 ^ k) den ≤ 2 ^ k :=
      roundDiv_le hden (Nat.mul_le_mul_right _ h)
    have hvalue : (roundDiv (num * 2 ^ k) den : ℚ) * 2 ^ (-k : Int) ≤ 1 := by
      rw [zpow_neg, zpow_natCast, mul_inv_le_iff₀ (by positivity), one_mul]
      exact_mod_cast hround
    refine ⟨roundDiv (num * 2 ^ k) den * 2 ^ (-k : Int), ?_, by positivity, hvalue⟩
    simp only [ofRatio, hnum, if_false, hk, hscale]
    by_cases hfull : roundDiv (num * 2 ^ k) den = 2 * fullMantissa
    · -- the carry into a new digit moves a factor of two into the exponent
      have hcarry : (roundDiv (num * 2 ^ k) den : ℚ) * 2 ^ (-k : Int) =
          fullMantissa * 2 ^ (-k + 1 : Int) := by
        rw [hfull, zpow_add_one₀ two_ne_zero]
        push_cast
        ring
      rw [hcarry]
      simp only [if_pos hfull, if_neg (show ¬ 971 < -(k : Int) + 1 by omega)]
      simp [toRat?]
    · simp only [if_neg hfull, if_neg (show ¬ 971 < -(k : Int) by omega)]
      simp [toRat?]

end Binary64

end BusBench

import BusBench.Word
import Mathlib.Tactic.IntervalCases

namespace BusBench

/-- Byte `n` of a word, counted from the low end. -/
def Word.byte (w : Word) (n : Nat) : Nat := w.toNat / 2 ^ (8 * n) % 256

/-- The word with given bytes. -/
def Word.ofBytes (byte : Nat → Nat) : Word :=
  .ofNat (byte 0 + 256 * byte 1 + 65536 * byte 2 + 16777216 * byte 3)

/-- The word with the bytes of `new` that a strobe names, and those of `old` elsewhere. -/
def Word.splice (old new : Word) (strobe : UInt8) : Word :=
  .ofBytes fun n => if strobe.toNat.testBit n then new.byte n else old.byte n

theorem laneMask_getLsbD {strobe : UInt8} {n i : Nat} (hn : n < 4) (hi : i < 32) :
    (laneMask strobe n).toBitVec.getLsbD i =
      (strobe.toNat.testBit n && decide (i / 8 = n)) := by
  unfold laneMask
  by_cases h : strobe.toNat.testBit n = true
  · rw [if_pos h, h]
    interval_cases n <;> interval_cases i <;> rfl
  · rw [if_neg h, eq_false_of_ne_true h]
    simp

theorem strobeMask_getLsbD {strobe : UInt8} {i : Nat} (hi : i < 32) :
    (strobeMask strobe).toBitVec.getLsbD i = strobe.toNat.testBit (i / 8) := by
  have hlane : i / 8 = 0 ∨ i / 8 = 1 ∨ i / 8 = 2 ∨ i / 8 = 3 := by omega
  simp only [strobeMask, UInt32.toBitVec_or, BitVec.getLsbD_or, laneMask_getLsbD, hi,
    Nat.reduceLT]
  rcases hlane with h | h | h | h <;> simp [h]

theorem merge_getLsbD {old new : Word} {strobe : UInt8} {i : Nat} (hi : i < 32) :
    (old.merge new strobe).toBitVec.getLsbD i =
      if strobe.toNat.testBit (i / 8) then new.toBitVec.getLsbD i else old.toBitVec.getLsbD i := by
  simp only [Word.merge, UInt32.toBitVec_or, UInt32.toBitVec_and, UInt32.toBitVec_not,
    BitVec.getLsbD_or, BitVec.getLsbD_and, BitVec.getLsbD_not, strobeMask_getLsbD hi, hi]
  cases strobe.toNat.testBit (i / 8) <;> simp

theorem byte_testBit (w : Word) (n j : Nat) :
    (w.byte n).testBit j = (decide (j < 8) && w.toBitVec.getLsbD (8 * n + j)) := by
  rw [Word.byte, show 256 = 2 ^ 8 from rfl, Nat.testBit_mod_two_pow, Nat.testBit_div_two_pow,
    Nat.add_comm]
  rfl

theorem merge_byte (old new : Word) (strobe : UInt8) {n : Nat} (hn : n < 4) :
    (old.merge new strobe).byte n =
      if strobe.toNat.testBit n then new.byte n else old.byte n := by
  apply Nat.eq_of_testBit_eq
  intro j
  by_cases hj : j < 8
  · have hlane : (8 * n + j) / 8 = n := by omega
    rw [byte_testBit, merge_getLsbD (by omega), hlane]
    cases strobe.toNat.testBit n <;> simp [byte_testBit]
  · cases strobe.toNat.testBit n <;> simp [byte_testBit, hj]

theorem ofBytes_byte (w : Word) : .ofBytes w.byte = w := by
  apply UInt32.toNat_inj.mp
  have hlt := w.toNat_lt
  simp only [Word.ofBytes, Word.byte, UInt32.toNat_ofNat']
  omega

theorem merge_eq_splice (old new : Word) (strobe : UInt8) :
    old.merge new strobe = old.splice new strobe := by
  rw [← ofBytes_byte (old.merge new strobe)]
  simp only [Word.ofBytes, Word.splice, merge_byte, Nat.reduceLT]

theorem toNat_div_mul (a : Word) : (a / 4 * 4).toNat = a.toNat / 4 * 4 := by
  have hlt := a.toNat_lt
  rw [UInt32.toNat_mul, UInt32.toNat_div]
  exact Nat.mod_eq_of_lt (by simp only [UInt32.reduceToNat]; omega)

theorem align_eq (a : Word) : a.align = a / 4 * 4 := by
  apply UInt32.toNat_inj.mp
  have hlt := a.toNat_lt
  have hdiv : a.toNat / 4 * 4 = a.toNat >>> 2 <<< 2 := by
    rw [Nat.shiftRight_eq_div_pow, Nat.shiftLeft_eq]
  rw [toNat_div_mul, hdiv, Word.align, UInt32.toNat_and]
  apply Nat.eq_of_testBit_eq
  intro i
  rw [Nat.testBit_and, Nat.testBit_shiftLeft, Nat.testBit_shiftRight]
  by_cases hi : i < 32
  · interval_cases i <;> simp [Nat.testBit]
  · have hx : a.toNat.testBit i = false :=
      Nat.testBit_lt_two_pow (hlt.trans_le (Nat.pow_le_pow_right (by omega) (by omega)))
    simp [hx, show 2 + (i - 2) = i by omega]

theorem toNat_and_three (a : Word) : (a &&& 3).toNat = a.toNat % 4 :=
  Nat.and_two_pow_sub_one_eq_mod a.toNat 2

theorem aligned_iff (a : Word) : a.aligned = true ↔ a.toNat % 4 = 0 := by
  rw [Word.aligned, beq_iff_eq, ← UInt32.toNat_inj, toNat_and_three]
  rfl

theorem align_aligned (a : Word) : a.align.aligned = true := by
  have h : a.align &&& 3 = 0 := by
    rw [Word.align, UInt32.and_assoc, show (0xfffffffc : Word) &&& 3 = 0 from rfl, UInt32.and_zero]
  simp [Word.aligned, h]

end BusBench

namespace BusBench

/-- A computation on 64 bits gives this number. -/
def Computes (x : Option UInt64) (n : Nat) : Prop := ∃ w, x = some w ∧ w.toNat = n

namespace Checked

/-- The sum of two numbers if it has 64 bits. -/
def sum (a b : UInt64) : Option UInt64 :=
  if a.toNat + b.toNat < UInt64.size then some (a + b) else none

/-- What is left of a number, unless more is taken than there is. -/
def difference (a b : UInt64) : Option UInt64 := if b ≤ a then some (a - b) else none

def quotient (a b : UInt64) : Option UInt64 := if b = 0 then none else some (a / b)

def remainder (a b : UInt64) : Option UInt64 := if b = 0 then none else some (a % b)

/-- The sum of two bytes if it is a byte. -/
def byteSum (a b : UInt8) : Option UInt8 :=
  if a.toNat + b.toNat < UInt8.size then some (a + b) else none

variable {a b : UInt64}

theorem sum_computes (h : a.toNat + b.toNat < UInt64.size) :
    Computes (sum a b) (a.toNat + b.toNat) :=
  ⟨a + b, if_pos h, by rw [UInt64.toNat_add, Nat.mod_eq_of_lt h]⟩

theorem difference_computes (h : b.toNat ≤ a.toNat) :
    Computes (difference a b) (a.toNat - b.toNat) := by
  have hle : b ≤ a := UInt64.le_iff_toNat_le.mpr h
  exact ⟨a - b, if_pos hle, UInt64.toNat_sub_of_le a b hle⟩

theorem quotient_computes (h : b ≠ 0) : Computes (quotient a b) (a.toNat / b.toNat) :=
  ⟨a / b, if_neg h, UInt64.toNat_div a b⟩

theorem remainder_computes (h : b ≠ 0) : Computes (remainder a b) (a.toNat % b.toNat) :=
  ⟨a % b, if_neg h, UInt64.toNat_mod a b⟩

theorem byteSum_computes {a b : UInt8} (h : a.toNat + b.toNat < UInt8.size) :
    ∃ c, byteSum a b = some c ∧ c.toNat = a.toNat + b.toNat :=
  ⟨a + b, if_pos h, by rw [UInt8.toNat_add, Nat.mod_eq_of_lt h]⟩

end Checked

end BusBench

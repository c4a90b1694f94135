namespace BusBench

/-- When the clock inverts and how long reset is held. -/
structure Schedule where
  halfPeriod : Nat := 10
  resetTicks : Nat := 40
  deriving DecidableEq, Repr, Inhabited

namespace Schedule

/-- Reset is held through tick `resetTicks`. -/
def resetAt (s : Schedule) (tick : Nat) : Bool := tick ≤ s.resetTicks

/-- The clock inverts on tick 1, or 0 if it inverts on every tick, and each half period later. -/
def togglesAt (s : Schedule) (tick : Nat) : Bool := tick % s.halfPeriod == 1 % s.halfPeriod

/-- The number of inversions before a tick. -/
def inversionsBefore (s : Schedule) (tick : Nat) : Nat :=
  let first := 1 % s.halfPeriod
  if tick ≤ first then 0 else (tick - first - 1) / s.halfPeriod + 1

/-- Every other inversion, the first included, is a rising edge. -/
def risesAt (s : Schedule) (tick : Nat) : Bool :=
  s.togglesAt tick && s.inversionsBefore tick % 2 == 0

end Schedule

end BusBench

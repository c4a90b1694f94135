import BusBench.Binary64

namespace BusBench

/-- The decimal fraction `0.DIGITS * 10 ^ point`. -/
structure Decimal where
  digits : List Char
  point : Int
  deriving DecidableEq, Repr

namespace Decimal

/-- Which of two neighbours is taken half way between them. -/
inductive Tie where
  | even
  | above
  deriving DecidableEq, Repr

/-- The quotient rounded to the nearest number. -/
def Tie.round (t : Tie) (num den : Nat) : Nat :=
  match t with
  | .even => Binary64.roundDiv num den
  | .above => (2 * num + den) / (2 * den)

/-- The place of the first digit of a fraction: it is below `10 ^ place`, and not below a
tenth of that. -/
def placeOf (num den : Nat) : Nat → Int
  | 0 => 0
  | fuel + 1 =>
    if den ≤ num then (Nat.toDigits 10 (num / den)).length
    else if den ≤ 10 * num then 0
    else placeOf (10 * num) den fuel - 1

/-- The fraction in units of `10 ^ e`. -/
def inUnits (num den : Nat) (e : Int) : Nat × Nat :=
  if e < 0 then (num * Nat.pow 10 (-e).toNat, den) else (num, den * Nat.pow 10 e.toNat)

/-- The numbers that a binary one stands for, as fractions over a common denominator. -/
structure Interval where
  low : Nat
  mid : Nat
  high : Nat
  den : Nat
  closed : Bool

/-- What rounds to `m * 2 ^ e`: up to half way to the neighbours, the ends too if `m` is even. -/
def interval (m : Nat) (e : Int) : Interval :=
  let below := if m = Binary64.fullMantissa ∧ -1074 < e then 1 else 2
  let up := Nat.pow 2 (e - 2).toNat
  ⟨(4 * m - below) * up, 4 * m * up, (4 * m + 2) * up, Nat.pow 2 (2 - e).toNat, m % 2 = 0⟩

/-- Whether `d * 10 ^ e` lies within. -/
def Interval.holds (i : Interval) (d : Nat) (e : Int) : Bool :=
  let (low, _) := inUnits i.low i.den e
  let (high, den) := inUnits i.high i.den e
  if i.closed then low ≤ d * den && d * den ≤ high else low < d * den && d * den < high

/-- The nearest multiple of `10 ^ e` within, if there is any. -/
def Interval.nearest? (i : Interval) (t : Tie) (e : Int) : Option Nat :=
  let (mid, den) := inUnits i.mid i.den e
  let d := mid / den
  let near := t.round mid den
  let far := if near = d then d + 1 else d
  if i.holds near e then some near
  else if i.holds far e then some far
  else none

/-- The first multiple within, of ever smaller powers of ten down to `10 ^ e`. -/
def shortestFrom (i : Interval) (t : Tie) (e : Int) : Nat → Nat × Int
  | 0 => ((i.nearest? t e).getD 0, e)
  | fuel + 1 =>
    match i.nearest? t (e + (fuel + 1 : Nat)) with
    | some d => (d, e + (fuel + 1 : Nat))
    | none => shortestFrom i t e fuel

/-- The digits of a number without the zeros at its end. -/
def significant (d : Nat) : List Char :=
  ((Nat.toDigits 10 d).reverse.dropWhile (· == '0')).reverse

/-- The shortest decimal that reads back as `m * 2 ^ e`; of several, the nearest one. -/
def shortest (t : Tie) (m : Nat) (e : Int) : Decimal :=
  if m = 0 then ⟨[], 0⟩
  else
    let i := interval m e
    let (d, e) := shortestFrom i t (placeOf i.mid i.den 400 - 17) 16
    ⟨significant d, (Nat.toDigits 10 d).length + e⟩

end Decimal

end BusBench

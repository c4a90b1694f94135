import BusBench.ShortestDecimal

namespace BusBench

/-- How a format writes a number with a fraction. -/
structure FloatStyle where
  /-- Numbers from `10 ^ highest` on have an exponent. -/
  highest : Option Int
  /-- Numbers below `10 ^ lowest` have an exponent. -/
  lowest : Option Int
  /-- A power of ten that is not negative has a sign, too. -/
  plus : Bool
  /-- Of two equally near decimals this one is written. -/
  tie : Decimal.Tie
  deriving DecidableEq, Repr

namespace FloatStyle

/-- Never an exponent. -/
def positional : FloatStyle := ⟨none, none, false, .above⟩

/-- An exponent from `10 ^ 16` on and below `10 ^ (-5)`. -/
def short : FloatStyle := ⟨some 16, some (-5), true, .even⟩

/-- Whether a decimal that starts at `point` is written without an exponent. -/
def isPositional (s : FloatStyle) (point : Int) : Bool :=
  (s.highest.all (point ≤ ·)) && (s.lowest.all (· < point))

end FloatStyle

namespace Decimal

/-- Digits with a point among, before or behind them, and at least one digit on either side. -/
def positional (d : Decimal) : List Char :=
  if d.point ≤ 0 then
    ['0', '.'] ++ List.replicate (-d.point).toNat '0' ++
      (if d.digits.isEmpty then ['0'] else d.digits)
  else
    let n := d.point.toNat
    let whole := d.digits.take n ++ List.replicate (n - d.digits.length) '0'
    let part := d.digits.drop n
    whole ++ ['.'] ++ (if part.isEmpty then ['0'] else part)

/-- A power of ten. -/
def exponent (plus : Bool) (e : Int) : List Char :=
  (if plus && 0 ≤ e then ['+'] else []) ++ (toString e).toList

/-- One digit, a point and the others if there are any, and the power of ten of the first. -/
def scientific (plus : Bool) (d : Decimal) : List Char :=
  match d.digits with
  | [] => ['0', '.', '0']
  | c :: cs =>
    c :: (if cs.isEmpty then [] else '.' :: cs) ++ ['e'] ++ exponent plus (d.point - 1)

end Decimal

/-- The text of a number in a style. -/
def Binary64.text (style : FloatStyle) : Binary64 → String
  | .nan => "NaN"
  | .infinite negative => (if negative then "-" else "") ++ "inf"
  | .finite negative m e =>
    let d := Decimal.shortest style.tie m e
    let cs := if style.isPositional d.point then d.positional else d.scientific style.plus
    String.ofList (if negative then '-' :: cs else cs)

end BusBench

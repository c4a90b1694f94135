import BusBench.Document
import BusBench.HexText

namespace BusBench

namespace Toml

/-- The value of a digit in a base up to 16. -/
def digit? (base : Nat) (c : Char) : Option Nat := (hexDigit? c).filter (· < base)

/-- Digits with single underscores among them, behind a digit that was read already. -/
def moreDigits? (base acc : Nat) : List Char → Option Nat
  | [] => some acc
  | '_' :: c :: cs => do moreDigits? base (base * acc + (← digit? base c)) cs
  | c :: cs => do moreDigits? base (base * acc + (← digit? base c)) cs

/-- A number of one or more digits. -/
def digits? (base : Nat) : List Char → Option Nat
  | [] => none
  | c :: cs => do moreDigits? base (← digit? base c) cs

/-- A number without a needless zero in front. -/
def decimal? (cs : List Char) : Option Nat :=
  match cs with
  | '0' :: _ :: _ => none
  | _ => digits? 10 cs

/-- A text without its sign, and whether that is a minus. -/
def sign : List Char → Bool × List Char
  | '-' :: cs => (true, cs)
  | '+' :: cs => (false, cs)
  | cs => (false, cs)

/-- A number of 64 bits with a sign. -/
def integer? (cs : List Char) : Option Int := do
  let n : Int ←
    match cs with
    | '0' :: 'x' :: cs => (digits? 16 cs).map (Int.ofNat ·)
    | '0' :: 'o' :: cs => (digits? 8 cs).map (Int.ofNat ·)
    | '0' :: 'b' :: cs => (digits? 2 cs).map (Int.ofNat ·)
    | cs => (decimal? (sign cs).2).map fun n => if (sign cs).1 then -n else n
  if -0x8000000000000000 ≤ n ∧ n < 0x8000000000000000 then some n else none

/-- The power of ten of a number. -/
def exponent? : List Char → Option Int
  | [] => some 0
  | _ :: cs => (digits? 10 (sign cs).2).map fun n => if (sign cs).1 then -n else n

/-- A number with a fraction, an exponent or both, unless it is too great. -/
def float? (cs : List Char) : Option Binary64 := do
  let (negative, cs) := sign cs
  match cs with
  | ['i', 'n', 'f'] => some (.infinite negative)
  | ['n', 'a', 'n'] => some .nan
  | cs =>
    let (mantissa, power) := cs.span fun c => c != 'e' && c != 'E'
    let (whole, part) := mantissa.span (· != '.')
    let e ← exponent? power
    let _ ← decimal? whole
    let part ←
      match part with
      | [] => if power.isEmpty then none else some []
      | _ :: part => (digits? 10 part).map fun _ => part.filter (· != '_')
    let all ← digits? 10 (whole ++ part)
    let x := Binary64.ofDecimal negative all (e - part.length)
    if x = .infinite false then none else some x

/-- A number of exactly so many digits. -/
def fixed? (n : Nat) (cs : List Char) : Option Nat :=
  if cs.length = n ∧ cs.all Char.isDigit then digits? 10 cs else none

def isLeap (year : Nat) : Bool := year % 4 = 0 && (year % 100 != 0 || year % 400 = 0)

def daysIn (year month : Nat) : Nat :=
  if month = 2 then (if isLeap year then 29 else 28)
  else if month = 4 ∨ month = 6 ∨ month = 9 ∨ month = 11 then 30
  else 31

/-- A day such as `1979-05-27`. -/
def isDate (cs : List Char) : Bool :=
  match cs with
  | [a, b, c, d, '-', e, f, '-', g, h] =>
    match fixed? 4 [a, b, c, d], fixed? 2 [e, f], fixed? 2 [g, h] with
    | some year, some month, some day =>
      1 ≤ month && month ≤ 12 && 1 ≤ day && day ≤ daysIn year month
    | _, _, _ => false
  | _ => false

/-- Hours and minutes. -/
def isClock (a b c d : Char) : Bool :=
  match fixed? 2 [a, b], fixed? 2 [c, d] with
  | some hour, some minute => hour ≤ 23 && minute ≤ 59
  | _, _ => false

/-- What may follow the seconds: a fraction of them. -/
def isSecondPart : List Char → Bool
  | [] => true
  | '.' :: cs => !cs.isEmpty && cs.all Char.isDigit
  | _ => false

/-- A time of day such as `07:32:00.5`. -/
def isTime (cs : List Char) : Bool :=
  match cs with
  | a :: b :: ':' :: c :: d :: ':' :: e :: f :: rest =>
    isClock a b c d && (fixed? 2 [e, f]).any (· ≤ 60) && isSecondPart rest
  | _ => false

/-- A time of day that may have an offset. -/
def isOffsetTime (cs : List Char) : Bool :=
  match cs.reverse with
  | 'Z' :: rest => isTime rest.reverse
  | 'z' :: rest => isTime rest.reverse
  | d :: c :: ':' :: b :: a :: s :: rest =>
    isTime cs || ((s = '+' || s = '-') && isClock a b c d && isTime rest.reverse)
  | _ => isTime cs

/-- A point in time: a day, a time or both. -/
def isMoment (cs : List Char) : Bool :=
  isDate cs || isTime cs ||
    (isDate (cs.take 10) &&
      match cs.drop 10 with
      | 'T' :: time => isOffsetTime time
      | 't' :: time => isOffsetTime time
      | ' ' :: time => isOffsetTime time
      | _ => false)

/-- A point in time is data under a key of its own. -/
def moment (cs : List Char) : Document :=
  .table [("$__toml_private_datetime", .text (String.ofList cs))]

/-- A value that is neither quoted nor made of others. -/
def scalar? (cs : List Char) : Option Document :=
  if cs = ['t', 'r', 'u', 'e'] then some (.bool true)
  else if cs = ['f', 'a', 'l', 's', 'e'] then some (.bool false)
  else if isMoment cs then some (moment cs)
  else (integer? cs).map Document.int <|> (float? cs).map Document.float

end Toml

end BusBench

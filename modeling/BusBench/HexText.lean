import BusBench.Blank
import BusBench.Word

namespace BusBench

/-- The value of a hexadecimal digit of either case. -/
def hexDigit? (c : Char) : Option Nat :=
  if '0' ≤ c ∧ c ≤ '9' then some (c.toNat - '0'.toNat)
  else if 'a' ≤ c ∧ c ≤ 'f' then some (c.toNat - 'a'.toNat + 10)
  else if 'A' ≤ c ∧ c ≤ 'F' then some (c.toNat - 'A'.toNat + 10)
  else none

def isHexDigit (c : Char) : Bool := (hexDigit? c).isSome

/-- The shortest hexadecimal text of a number. -/
def hexText (n : Nat) : String := String.ofList (Nat.toDigits 16 n)

/-- `0x` and the eight digits of a word. -/
def Word.hex (w : Word) : String :=
  let digits := Nat.toDigits 16 w.toNat
  "0x" ++ String.ofList (List.replicate (8 - digits.length) '0' ++ digits)

/-- A text without the `0x` or `0X` it may start with. -/
def dropRadix : List Char → List Char
  | '0' :: 'x' :: cs => cs
  | '0' :: 'X' :: cs => cs
  | cs => cs

/-- Why a text is no hexadecimal word. -/
inductive HexFault where
  | empty
  | badDigit
  | tooLarge
  deriving DecidableEq, Repr

/-- A refused text with the reason. -/
structure HexError where
  text : String
  fault : HexFault
  deriving DecidableEq, Repr

def HexError.message (e : HexError) : String :=
  match e.fault with
  | .empty => "'" ++ e.text ++ "' is not a hexadecimal word"
  | .badDigit =>
    "'" ++ e.text ++ "' is not a 32-bit hexadecimal word: invalid digit found in string"
  | .tooLarge =>
    "'" ++ e.text ++ "' is not a 32-bit hexadecimal word: number too large to fit in target type"

/-- Reads digits from the left; the first one that is none, or that leaves 32 bits, decides. -/
def hexValue (acc : Nat) : List Char → Except HexFault Nat
  | [] => .ok acc
  | c :: cs =>
    match hexDigit? c with
    | none => .error .badDigit
    | some d => if 16 * acc + d < UInt32.size then hexValue (16 * acc + d) cs else .error .tooLarge

/-- One plus sign may stand before the digits, but not alone. -/
def signedHexValue : List Char → Except HexFault Nat
  | ['+'] => .error .badDigit
  | '+' :: cs => hexValue 0 cs
  | cs => hexValue 0 cs

/-- The digits of a spelled word: blanks around it, its radix mark and its underscores left out. -/
def wordDigits (text : String) : List Char :=
  (dropRadix (trim text.toList)).filter (· != '_')

/-- Reads a word such as `0x8000_0ff0`. -/
def Word.parse (text : String) : Except HexError Word :=
  let digits := wordDigits text
  if digits.isEmpty then .error ⟨text, .empty⟩
  else
    match signedHexValue digits with
    | .ok n => .ok (UInt32.ofNat n)
    | .error fault => .error ⟨text, fault⟩

end BusBench

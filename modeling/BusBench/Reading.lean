import BusBench.Document
import BusBench.FloatText
import BusBench.Quoted

namespace BusBench

/-- Why a document is not what was asked for. -/
inductive Mistake where
  | missing (key : String)
  | unknownKey (key : String) (known : List String)
  | unknownVariant (name : String) (known : List String)
  | wrongKind (found : Document) (expected : String)
  | outOfRange (n : Int) (expected : String)
  | wrongLength (n : Nat) (expected : String)
  | tooWide (n : Int)
  | notHex (error : HexError)

/-- How a format reads and shows what differs between formats. -/
structure Format where
  floats : FloatStyle
  surplusItems : Bool

/-- Configuration files write numbers in full and may have items to spare. -/
def Format.toml : Format := ⟨.positional, true⟩

def Format.json : Format := ⟨.short, false⟩

namespace Mistake

/-- A choice of names. -/
def oneOf : List String → String
  | [] => "there are no fields"
  | [a] => "expected `" ++ a ++ "`"
  | [a, b] => "expected `" ++ a ++ "` or `" ++ b ++ "`"
  | names => "expected one of " ++ ", ".intercalate (names.map fun n => "`" ++ n ++ "`")

/-- What kind of value was found. -/
def kind (style : FloatStyle) : Document → String
  | .null => "null"
  | .bool b => "boolean `" ++ (if b then "true" else "false") ++ "`"
  | .int n => "integer `" ++ toString n ++ "`"
  | .float x => "floating point `" ++ x.text style ++ "`"
  | .text s => "string " ++ quoted s
  | .list _ => "sequence"
  | .table _ => "map"

def message (style : FloatStyle) : Mistake → String
  | missing key => "missing field `" ++ key ++ "`"
  | unknownKey key known => "unknown field `" ++ key ++ "`, " ++ oneOf known
  | unknownVariant name known => "unknown variant `" ++ name ++ "`, " ++ oneOf known
  | wrongKind found expected => "invalid type: " ++ kind style found ++ ", expected " ++ expected
  | outOfRange n expected => "invalid value: integer `" ++ toString n ++ "`, expected " ++ expected
  | wrongLength n expected => "invalid length " ++ toString n ++ ", expected " ++ expected
  | tooWide n => toString n ++ " does not fit in 32 bits"
  | notHex error => error.message

end Mistake

/-- What a document is read as. -/
abbrev Reader (α : Type) := Document → Except Mistake α

namespace Reader

def bool : Reader Bool
  | .bool b => .ok b
  | d => .error (.wrongKind d "a boolean")

def text : Reader String
  | .text s => .ok s
  | d => .error (.wrongKind d "a string")

def path : Reader String
  | .text s => .ok s
  | d => .error (.wrongKind d "path string")

/-- A number of at most so many bits. -/
def unsigned (bits : Nat) : Reader Nat
  | .int n =>
    if 0 ≤ n ∧ n < Nat.pow 2 bits then .ok n.toNat
    else .error (.outOfRange n ("u" ++ toString bits))
  | d => .error (.wrongKind d ("u" ++ toString bits))

/-- A word as a number or in hexadecimal digits. -/
def spelledWord : Reader Word
  | .int n => if 0 ≤ n ∧ n < UInt32.size then .ok (UInt32.ofNat n.toNat) else .error (.tooWide n)
  | .text s =>
    match Word.parse s with
    | .ok w => .ok w
    | .error e => .error (.notHex e)
  | d => .error (.wrongKind d "a 32-bit unsigned integer or a hexadecimal string")

def word : Reader Word := fun d => (unsigned 32 d).map UInt32.ofNat

def byte : Reader UInt8 := fun d => (unsigned 8 d).map UInt8.ofNat

/-- A value or nothing. -/
def nullable {α : Type} (r : Reader α) : Reader (Option α)
  | .null => .ok none
  | d => (r d).map some

/-- A value where there must be one. -/
def present {α : Type} (r : Reader α) : Reader (Option α) := fun d => (r d).map some

def list {α : Type} (r : Reader α) : Reader (List α)
  | .list ds => ds.mapM r
  | d => .error (.wrongKind d "a sequence")

end Reader

end BusBench

import BusBench.Document
import BusBench.FloatText

namespace BusBench

namespace Json

/-- A character within a string. -/
def escaped (c : Char) : List Char :=
  if c = '\x22' then ['\x5c', '\x22']
  else if c = '\x5c' then ['\x5c', '\x5c']
  else if c = '\n' then ['\x5c', 'n']
  else if c = '\r' then ['\x5c', 'r']
  else if c = '\t' then ['\x5c', 't']
  else if c = '\x08' then ['\x5c', 'b']
  else if c = '\x0c' then ['\x5c', 'f']
  else if c.toNat < 0x20 then
    let digits := Nat.toDigits 16 c.toNat
    ['\x5c', 'u'] ++ List.replicate (4 - digits.length) '0' ++ digits
  else [c]

/-- A string with its quotes. -/
def string (s : String) : String :=
  String.ofList (['\x22'] ++ s.toList.flatMap escaped ++ ['\x22'])

/-- The line break before an item at a depth. -/
def indent (depth : Nat) : String := "\n" ++ String.ofList (List.replicate (2 * depth) ' ')

mutual

/-- The text of a document whose inner lines are indented two blanks a level. -/
def pretty (depth : Nat) : Document → String
  | .null => "null"
  | .bool b => if b then "true" else "false"
  | .int n => toString n
  | .float x => x.text .short
  | .text s => string s
  | .list [] => "[]"
  | .list (d :: ds) =>
    "[" ++ indent (depth + 1) ++ pretty (depth + 1) d ++ prettyItems (depth + 1) ds ++
      indent depth ++ "]"
  | .table [] => "\x7b\x7d"
  | .table ((k, d) :: es) =>
    "\x7b" ++ indent (depth + 1) ++ string k ++ ": " ++ pretty (depth + 1) d ++
      prettyEntries (depth + 1) es ++ indent depth ++ "\x7d"

/-- The items after the first one. -/
def prettyItems (depth : Nat) : List Document → String
  | [] => ""
  | d :: ds => "," ++ indent depth ++ pretty depth d ++ prettyItems depth ds

/-- The entries after the first one. -/
def prettyEntries (depth : Nat) : List (String × Document) → String
  | [] => ""
  | (k, d) :: es =>
    "," ++ indent depth ++ string k ++ ": " ++ pretty depth d ++ prettyEntries depth es

end

mutual

/-- The text of a document on one line. -/
def compact : Document → String
  | .null => "null"
  | .bool b => if b then "true" else "false"
  | .int n => toString n
  | .float x => x.text .short
  | .text s => string s
  | .list [] => "[]"
  | .list (d :: ds) => "[" ++ compact d ++ compactItems ds ++ "]"
  | .table [] => "\x7b\x7d"
  | .table ((k, d) :: es) =>
    "\x7b" ++ string k ++ ":" ++ compact d ++ compactEntries es ++ "\x7d"

/-- The items after the first one. -/
def compactItems : List Document → String
  | [] => ""
  | d :: ds => "," ++ compact d ++ compactItems ds

/-- The entries after the first one. -/
def compactEntries : List (String × Document) → String
  | [] => ""
  | (k, d) :: es => "," ++ string k ++ ":" ++ compact d ++ compactEntries es

end

end Json

end BusBench

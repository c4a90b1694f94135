import BusBench.HexText

namespace BusBench

/-- The sentinel addresses that a disassembly listing names. -/
structure Labels where
  pass : Option Word := none
  fail : Option Word := none
  deriving DecidableEq, Repr

/-- A label whose address cannot be read. -/
structure LabelError where
  line : Nat
  error : HexError
  deriving DecidableEq, Repr

def LabelError.message (e : LabelError) : String :=
  "line " ++ toString e.line ++ ": bad label address: " ++ e.error.message

namespace Labels

/-- The sentinel that a line defines: the pass label is looked for first. -/
def defined? (line : List Char) : Option (Word → Labels → Labels) :=
  if occursIn " <pass>:".toList line then some fun a l => { l with pass := some a }
  else if occursIn " <fail>:".toList line then some fun a l => { l with fail := some a }
  else none

/-- Reads the lines of a listing from line number `n` on; a later label replaces an earlier one. -/
def ofLines (n : Nat) (labels : Labels) : List (List Char) → Except LabelError Labels
  | [] => .ok labels
  | line :: rest =>
    match defined? line with
    | none => ofLines (n + 1) labels rest
    | some set =>
      match Word.parse (String.ofList (firstToken line)) with
      | .ok addr => ofLines (n + 1) (set addr labels) rest
      | .error e => .error ⟨n, e⟩

/-- Finds the addresses in front of the sentinel labels of a listing. -/
def ofListing (text : String) : Except LabelError Labels := ofLines 1 {} (lines text.toList)

end Labels

end BusBench

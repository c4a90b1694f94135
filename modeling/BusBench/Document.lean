import BusBench.Binary64

namespace BusBench

/-- Plain data: what a configuration or a message is made of. -/
inductive Document where
  | null
  | bool (b : Bool)
  | int (n : Int)
  | float (x : Binary64)
  | text (s : String)
  | list (items : List Document)
  | table (entries : List (String × Document))
  deriving Repr, Inhabited

namespace Document

/-- A natural number. -/
def nat (n : Nat) : Document := int n

/-- A number of any fixed width. -/
def word (w : UInt32) : Document := nat w.toNat

/-- A value that may be missing. -/
def ofOption {α : Type} (f : α → Document) : Option α → Document
  | none => null
  | some a => f a

end Document

end BusBench

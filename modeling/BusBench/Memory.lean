import BusBench.HexText
import Std.Data.ExtTreeMap

namespace BusBench

/-- A sparse memory: the addresses from `lo` to `hi` are mapped, and a word never written
reads as `fill`. -/
structure Memory where
  lo : Word
  hi : Word
  fill : Word
  words : Std.ExtTreeMap Word Word

/-- Why a word cannot be accessed. -/
inductive MemoryError where
  | outOfRange (addr lo hi : Word)
  | unaligned (addr : Word)
  deriving DecidableEq, Repr

def MemoryError.message : MemoryError → String
  | .outOfRange addr lo hi =>
    "address " ++ addr.hex ++ " is not in the mapped range <" ++ lo.hex ++ ", " ++ hi.hex ++ ">"
  | .unaligned addr => "address " ++ addr.hex ++ " is not word aligned"

namespace Memory

/-- A memory in which nothing has been written. -/
def empty (lo hi fill : Word) : Memory := ⟨lo, hi, fill, ∅⟩

/-- Whether an address is mapped. -/
def contains (m : Memory) (addr : Word) : Bool := m.lo ≤ addr && addr ≤ m.hi

/-- The number of words written so far. -/
def size (m : Memory) : Nat := m.words.size

/-- Alignment is asked for before the range. -/
def check (m : Memory) (addr : Word) : Except MemoryError Unit :=
  if !addr.aligned then .error (.unaligned addr)
  else if !m.contains addr then .error (.outOfRange addr m.lo m.hi)
  else .ok ()

/-- The word at an address, whether or not it may be accessed. -/
def word (m : Memory) (addr : Word) : Word := m.words.getD addr m.fill

def load (m : Memory) (addr : Word) : Except MemoryError Word :=
  (m.check addr).map fun _ => m.word addr

def store (m : Memory) (addr value : Word) : Except MemoryError Memory :=
  (m.check addr).map fun _ => { m with words := m.words.insert addr value }

end Memory

end BusBench

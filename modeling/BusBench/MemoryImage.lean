import BusBench.Memory

namespace BusBench

/-- A word of a memory image with the number of its line. -/
structure ImageWord where
  line : Nat
  word : Word
  deriving DecidableEq, Repr

/-- Why an image cannot be loaded. -/
inductive PreloadError where
  | malformed (line : Nat) (text : String)
  | unalignedOffset (offset : Word)
  | memory (line : Nat) (error : MemoryError)
  | overflow (line : Nat)
  deriving DecidableEq, Repr

def PreloadError.message : PreloadError → String
  | .malformed line text => "line " ++ toString line ++ ": malformed memory word '" ++ text ++ "'"
  | .unalignedOffset offset => "preload offset " ++ offset.hex ++ " is not word aligned"
  | .memory line error => "line " ++ toString line ++ ": " ++ error.message
  | .overflow line => "line " ++ toString line ++ ": image extends past address 0xffffffff"

/-- The word a trimmed line spells: one to eight digits after an optional radix mark. -/
def imageWord? (text : List Char) : Option Word :=
  let digits := dropRadix text
  if digits.isEmpty || digits.length > 8 || !digits.all isHexDigit then none
  else
    match signedHexValue digits with
    | .ok n => some (UInt32.ofNat n)
    | .error _ => none

/-- Reads the lines of an image from line number `n` on; blank lines hold no word. -/
def imageWords (n : Nat) : List (List Char) → Except PreloadError (List ImageWord)
  | [] => .ok []
  | l :: ls =>
    let text := trim l
    if text.isEmpty then imageWords (n + 1) ls
    else
      match imageWord? text with
      | none => .error (.malformed n (String.ofList text))
      | some w => (imageWords (n + 1) ls).map (⟨n, w⟩ :: ·)

/-- Reads a memory image: one hexadecimal word a line. -/
def parseImage (text : String) : Except PreloadError (List ImageWord) :=
  imageWords 1 (lines text.toList)

/-- A number as a word, if it fits one. -/
def Word.ofNat? (n : Nat) : Option Word :=
  if n < UInt32.size then some (UInt32.ofNat n) else none

/-- The address of a slot of an image, if no step on the way to it leaves 32 bits. -/
def slotAddr? (offset : Word) (slot : Nat) : Option Word := do
  let slot ← Word.ofNat? slot
  let distance ← Word.ofNat? (slot.toNat * 4)
  Word.ofNat? (offset.toNat + distance.toNat)

namespace Memory

/-- Finds an address for each word of an image, from a slot on. The first word whose address does
not exist or is not mapped decides. -/
def allot (m : Memory) (offset : Word) (slot : Nat) :
    List ImageWord → Except PreloadError (List (Word × ImageWord))
  | [] => .ok []
  | w :: ws =>
    match slotAddr? offset slot with
    | none => .error (.overflow w.line)
    | some addr =>
      if m.contains addr then (m.allot offset (slot + 1) ws).map ((addr, w) :: ·)
      else .error (.memory w.line (.outOfRange addr m.lo m.hi))

/-- Stores words at their addresses. A refused word ends this, and those before it stay stored. -/
def storeAll (m : Memory) : List (Word × ImageWord) → Memory × Except PreloadError Unit
  | [] => (m, .ok ())
  | (addr, w) :: ps =>
    match m.store addr w.word with
    | .error e => (m, .error (.memory w.line e))
    | .ok m => m.storeAll ps

/-- Loads an image at `offset`: what it leaves of the memory, and the number of its words or what
is wrong with it. -/
def loadImage (m : Memory) (text : String) (offset : Word) : Memory × Except PreloadError Nat :=
  if !offset.aligned then (m, .error (.unalignedOffset offset))
  else
    match parseImage text with
    | .error e => (m, .error e)
    | .ok ws =>
      match m.allot offset 0 ws with
      | .error e => (m, .error e)
      | .ok ps =>
        match m.storeAll ps with
        | (m, .error e) => (m, .error e)
        | (m, .ok ()) => (m, .ok ps.length)

/-- The memory with an image and the number of its words; a memory with a part of an image is of
no use. -/
def preload (m : Memory) (text : String) (offset : Word) : Except PreloadError (Memory × Nat) :=
  match m.loadImage text offset with
  | (m, .ok n) => .ok (m, n)
  | (_, .error e) => .error e

end Memory

end BusBench

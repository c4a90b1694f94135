namespace BusBench

/-- A 32-bit word of the bus: an address or the data at one. -/
abbrev Word := UInt32

/-- The address of the word that holds the byte at `a`. -/
def Word.align (a : Word) : Word := a &&& 0xfffffffc

/-- A word address is a multiple of four. -/
def Word.aligned (a : Word) : Bool := a &&& 3 == 0

/-- The byte of a word that lane `n` carries, if the strobe enables that lane. -/
def laneMask (strobe : UInt8) (n : Nat) : Word :=
  if strobe.toNat.testBit n then (0xff : Word) <<< UInt32.ofNat (8 * n) else 0

/-- The bits a strobe lets through; only its four low bits name lanes. -/
def strobeMask (strobe : UInt8) : Word :=
  laneMask strobe 0 ||| laneMask strobe 1 ||| laneMask strobe 2 ||| laneMask strobe 3

/-- The enabled bytes come from `new`, the others from `old`. -/
def Word.merge (old new : Word) (strobe : UInt8) : Word :=
  (old &&& ~~~ strobeMask strobe) ||| (new &&& strobeMask strobe)

end BusBench

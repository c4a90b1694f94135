namespace BusBench

namespace Gzip

/-- Takes one bit out of the remainder of the check. -/
def checkBit (c : UInt32) : UInt32 := if c &&& 1 = 1 then (c >>> 1) ^^^ 0xedb88320 else c >>> 1

/-- Takes a byte into the remainder of the check, the lowest bit first. -/
def checkByte (c : UInt32) (b : UInt8) : UInt32 :=
  (List.range 8).foldl (fun c _ => checkBit c) (c ^^^ b.toUInt32)

/-- The 32-bit cyclic check of bytes. -/
def check (bytes : List UInt8) : UInt32 := ~~~ bytes.foldl checkByte 0xffffffff

/-- So many bytes of a number, the lowest first. -/
def littleEndian (count n : Nat) : List UInt8 :=
  (List.range count).map fun k => UInt8.ofNat (n >>> (8 * k))

/-- The most bytes that a stored block holds. -/
def blockLimit : Nat := 65535

/-- A stored block, which may be the last one. -/
def block (last : Bool) (bytes : List UInt8) : List UInt8 :=
  UInt8.ofNat last.toNat :: (littleEndian 2 bytes.length ++
    littleEndian 2 (blockLimit - bytes.length) ++ bytes)

/-- Stored blocks that hold the bytes in order. -/
def blocks (bytes : List UInt8) : List UInt8 :=
  if bytes.length ≤ blockLimit then block true bytes
  else block false (bytes.take blockLimit) ++ blocks (bytes.drop blockLimit)
termination_by bytes.length
decreasing_by simp only [List.length_drop]; unfold blockLimit at *; omega

def header : List UInt8 := [0x1f, 0x8b, 8, 0, 0, 0, 0, 0, 0, 255]

/-- A compressed file of the bytes, none of which is left out. -/
def file (bytes : List UInt8) : List UInt8 :=
  header ++ blocks bytes ++ littleEndian 4 (check bytes).toNat ++ littleEndian 4 bytes.length

end Gzip

end BusBench

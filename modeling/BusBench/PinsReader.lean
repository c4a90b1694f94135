import BusBench.Fields
import BusBench.Pins

namespace BusBench

namespace Pins

/-- The pins as a record in which none may be missing. -/
def fields : Fields Pins :=
  Pins.mk <$> .needed "reset" Reader.bool
    <*> .needed "clock" Reader.bool
    <*> .needed "read_addr_valid" Reader.bool
    <*> .needed "read_addr" Reader.word
    <*> .needed "read_addr_ready" Reader.bool
    <*> .needed "read_data_valid" Reader.bool
    <*> .needed "read_data" Reader.word
    <*> .needed "write_addr_valid" Reader.bool
    <*> .needed "write_addr" Reader.word
    <*> .needed "write_addr_ready" Reader.bool
    <*> .needed "write_data_valid" Reader.bool
    <*> .needed "write_data" Reader.word
    <*> .needed "write_strobe" Reader.byte
    <*> .needed "write_data_ready" Reader.bool
    <*> .needed "write_resp_valid" Reader.bool

/-- Reads all pins; other keys are let be. -/
def reader : Reader Pins := fields.reader .json "struct BusPins" false

/-- The level of a pin as it is written out: a flag, or the whole number on it. -/
def level (p : Pins) : Pin → Document
  | .readAddr => .word p.readAddr
  | .readData => .word p.readData
  | .writeAddr => .word p.writeAddr
  | .writeData => .word p.writeData
  | .writeStrobe => .nat p.writeStrobe.toNat
  | pin => .bool (p.value pin != 0)

/-- All pins with their levels. -/
def document (p : Pins) : Document :=
  .table (Pin.all.map fun pin => (pin.name, p.level pin))

end Pins

end BusBench

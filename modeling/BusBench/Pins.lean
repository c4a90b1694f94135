import BusBench.Word

namespace BusBench

/-- The pins between the device and the bench. -/
inductive Pin where
  | reset | clock
  | readAddrValid | readAddr | readAddrReady | readDataValid | readData
  | writeAddrValid | writeAddr | writeAddrReady
  | writeDataValid | writeData | writeStrobe | writeDataReady | writeRespValid
  deriving DecidableEq, Repr

namespace Pin

/-- The pins in the order of the layout. -/
def all : List Pin :=
  [reset, clock,
   readAddrValid, readAddr, readAddrReady, readDataValid, readData,
   writeAddrValid, writeAddr, writeAddrReady,
   writeDataValid, writeData, writeStrobe, writeDataReady, writeRespValid]

def name : Pin → String
  | reset => "reset"
  | clock => "clock"
  | readAddrValid => "read_addr_valid"
  | readAddr => "read_addr"
  | readAddrReady => "read_addr_ready"
  | readDataValid => "read_data_valid"
  | readData => "read_data"
  | writeAddrValid => "write_addr_valid"
  | writeAddr => "write_addr"
  | writeAddrReady => "write_addr_ready"
  | writeDataValid => "write_data_valid"
  | writeData => "write_data"
  | writeStrobe => "write_strobe"
  | writeDataReady => "write_data_ready"
  | writeRespValid => "write_resp_valid"

/-- The number of bits a pin carries. -/
def width : Pin → Nat
  | readAddr | readData | writeAddr | writeData => 32
  | writeStrobe => 4
  | _ => 1

end Pin

/-- The levels on all pins. -/
structure Pins where
  reset : Bool := false
  clock : Bool := false
  readAddrValid : Bool := false
  readAddr : Word := 0
  readAddrReady : Bool := false
  readDataValid : Bool := false
  readData : Word := 0
  writeAddrValid : Bool := false
  writeAddr : Word := 0
  writeAddrReady : Bool := false
  writeDataValid : Bool := false
  writeData : Word := 0
  writeStrobe : UInt8 := 0
  writeDataReady : Bool := false
  writeRespValid : Bool := false
  deriving DecidableEq, Repr, Inhabited

namespace Pins

/-- The level of one pin as a number; only the lane bits of the strobe are wired. -/
def value (p : Pins) : Pin → Word
  | .reset => p.reset.toUInt32
  | .clock => p.clock.toUInt32
  | .readAddrValid => p.readAddrValid.toUInt32
  | .readAddr => p.readAddr
  | .readAddrReady => p.readAddrReady.toUInt32
  | .readDataValid => p.readDataValid.toUInt32
  | .readData => p.readData
  | .writeAddrValid => p.writeAddrValid.toUInt32
  | .writeAddr => p.writeAddr
  | .writeAddrReady => p.writeAddrReady.toUInt32
  | .writeDataValid => p.writeDataValid.toUInt32
  | .writeData => p.writeData
  | .writeStrobe => p.writeStrobe.toUInt32 &&& 0xf
  | .writeDataReady => p.writeDataReady.toUInt32
  | .writeRespValid => p.writeRespValid.toUInt32

/-- The levels in the order of the layout. -/
def values (p : Pins) : List Word := Pin.all.map p.value

/-- Puts a level on one pin; the strobe takes a whole byte. -/
def set (p : Pins) (level : Word) : Pin → Pins
  | .reset => { p with reset := level != 0 }
  | .clock => { p with clock := level != 0 }
  | .readAddrValid => { p with readAddrValid := level != 0 }
  | .readAddr => { p with readAddr := level }
  | .readAddrReady => { p with readAddrReady := level != 0 }
  | .readDataValid => { p with readDataValid := level != 0 }
  | .readData => { p with readData := level }
  | .writeAddrValid => { p with writeAddrValid := level != 0 }
  | .writeAddr => { p with writeAddr := level }
  | .writeAddrReady => { p with writeAddrReady := level != 0 }
  | .writeDataValid => { p with writeDataValid := level != 0 }
  | .writeData => { p with writeData := level }
  | .writeStrobe => { p with writeStrobe := level.toUInt8 }
  | .writeDataReady => { p with writeDataReady := level != 0 }
  | .writeRespValid => { p with writeRespValid := level != 0 }

/-- Puts levels on pins, a later one over an earlier one. -/
def setAll (p : Pins) (levels : List (Pin × Word)) : Pins :=
  levels.foldl (fun p (pin, level) => p.set level pin) p

/-- Takes back every response flag; the data read last stays. -/
def clearResponses (p : Pins) : Pins :=
  { p with
    readAddrReady := false
    readDataValid := false
    writeAddrReady := false
    writeDataReady := false
    writeRespValid := false }

/-- Takes back every request; addresses, data and strobe stay. -/
def clearRequests (p : Pins) : Pins :=
  { p with readAddrValid := false, writeAddrValid := false, writeDataValid := false }

end Pins

end BusBench

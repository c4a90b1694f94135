import BusBench.Memory
import BusBench.Pins

namespace BusBench

/-- The two directions of the bus. -/
inductive Channel where
  | read
  | write
  deriving DecidableEq, Repr

/-- An access that the memory refused. -/
structure Violation where
  tick : Nat
  channel : Channel
  addr : Word
  reason : MemoryError
  deriving DecidableEq, Repr

/-- What the bus has served so far. -/
structure BusStats where
  reads : Nat := 0
  writes : Nat := 0
  violations : List Violation := []
  deriving DecidableEq, Repr, Inhabited

/-- The pins, the memory behind them and the record of what was served. -/
structure Bus where
  pins : Pins
  memory : Memory
  stats : BusStats := {}

namespace Bus

/-- Notes a refused access. -/
def refuse (b : Bus) (tick : Nat) (channel : Channel) (addr : Word) (reason : MemoryError) : Bus :=
  { b with stats.violations := b.stats.violations ++ [⟨tick, channel, addr, reason⟩] }

/-- Puts a word on the read channel and completes the read. -/
def answerRead (b : Bus) (data : Word) : Bus :=
  { b with
    pins.readAddrReady := true
    pins.readDataValid := true
    pins.readData := data
    stats.reads := b.stats.reads + 1 }

/-- Completes a write. -/
def answerWrite (b : Bus) : Bus :=
  { b with
    pins.writeAddrReady := true
    pins.writeDataReady := true
    pins.writeRespValid := true
    stats.writes := b.stats.writes + 1 }

/-- Serves a pending read; a refused one is answered with the fill word. -/
def serveRead (tick : Nat) (b : Bus) : Bus :=
  if b.pins.readAddrValid then
    let addr := b.pins.readAddr.align
    match b.memory.load addr with
    | .ok data => b.answerRead data
    | .error e => (b.refuse tick .read addr e).answerRead b.memory.fill
  else b

/-- Stores the enabled bytes of a word over what the memory holds there. -/
def mergeStore (m : Memory) (addr data : Word) (strobe : UInt8) : Except MemoryError Memory :=
  match m.load addr with
  | .ok old => m.store addr (old.merge data strobe)
  | .error e => .error e

/-- Serves a pending write; a refused one is completed without effect. -/
def serveWrite (tick : Nat) (b : Bus) : Bus :=
  if b.pins.writeAddrValid && b.pins.writeDataValid then
    let addr := b.pins.writeAddr.align
    match mergeStore b.memory addr b.pins.writeData b.pins.writeStrobe with
    | .ok memory => { b with memory }.answerWrite
    | .error e => (b.refuse tick .write addr e).answerWrite
  else b

/-- One rising edge: the responses of the last one end, then the read and the write are served. -/
def respond (tick : Nat) (b : Bus) : Bus :=
  serveWrite tick (serveRead tick { b with pins := b.pins.clearResponses })

end Bus

end BusBench

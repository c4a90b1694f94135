import BusBench.Binary64
import BusBench.Sink

namespace BusBench

/-- The number of bits that are set. -/
def popCount (w : Word) : Nat := ((List.range 32).filter w.toNat.testBit).length

/-- How often the bits of a pin rose and fell, and which ones did at all. -/
structure Toggles where
  pin : Pin
  rises : Nat := 0
  falls : Nat := 0
  rose : Word := 0
  fell : Word := 0
  deriving DecidableEq, Repr

namespace Toggles

/-- Counts the bits that differ between two samples. -/
def observe (last now : Pins) (t : Toggles) : Toggles :=
  let rose := ~~~ last.value t.pin &&& now.value t.pin
  let fell := last.value t.pin &&& ~~~ now.value t.pin
  { t with
    rises := t.rises + popCount rose
    falls := t.falls + popCount fell
    rose := t.rose ||| rose
    fell := t.fell ||| fell }

/-- The bits that both rose and fell. -/
def covered (t : Toggles) : Nat := popCount (t.rose &&& t.fell)

end Toggles

/-- What was seen of the pins so far. -/
structure Coverage where
  samples : Nat := 0
  readHandshakes : Nat := 0
  writeHandshakes : Nat := 0
  last : Option Pins := none
  toggles : List Toggles := Pin.all.map ({ pin := · })
  deriving DecidableEq, Repr

namespace Coverage

/-- Compares a sample with the one before: a response at a rising clock is one handshake. -/
def compare (last now : Pins) (c : Coverage) : Coverage :=
  let rising := !last.clock && now.clock
  { c with
    toggles := c.toggles.map (·.observe last now)
    readHandshakes := c.readHandshakes + (rising && now.readDataValid).toNat
    writeHandshakes := c.writeHandshakes + (rising && now.writeRespValid).toNat }

/-- Takes one more sample. -/
def sample (now : Pins) (c : Coverage) : Coverage :=
  let c :=
    match c.last with
    | some last => c.compare last now
    | none => c
  { c with last := some now, samples := c.samples + 1 }

/-- The number of covered bits. -/
def covered (c : Coverage) : Nat := c.toggles.foldr (fun t n => t.covered + n) 0

/-- The number of bits there are. -/
def bits (c : Coverage) : Nat := c.toggles.foldr (fun t n => t.pin.width + n) 0

/-- The covered part of all bits. -/
def fraction (c : Coverage) : Binary64 := .ofRatio false c.covered c.bits

/-- Coverage as a sink that is never written anywhere. -/
def sink : CoverageSink Coverage := ⟨fun _ => sample, fun c => (.ok (), c)⟩

end Coverage

end BusBench

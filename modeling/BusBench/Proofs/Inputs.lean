import BusBench.Proofs.Service
import BusBench.Proofs.Ticks

namespace BusBench

/-- The levels that the bench drives: reset, the clock and the responses. -/
structure Inputs where
  reset : Bool := false
  clock : Bool := false
  readAddrReady : Bool := false
  readDataValid : Bool := false
  readData : Word := 0
  writeAddrReady : Bool := false
  writeDataReady : Bool := false
  writeRespValid : Bool := false
  deriving DecidableEq, Repr

def Pins.inputs (p : Pins) : Inputs :=
  ⟨p.reset, p.clock, p.readAddrReady, p.readDataValid, p.readData, p.writeAddrReady,
    p.writeDataReady, p.writeRespValid⟩

/-- The pins with other levels where the bench drives them. -/
def Pins.drive (p : Pins) (i : Inputs) : Pins :=
  { p with
    reset := i.reset
    clock := i.clock
    readAddrReady := i.readAddrReady
    readDataValid := i.readDataValid
    readData := i.readData
    writeAddrReady := i.writeAddrReady
    writeDataReady := i.writeDataReady
    writeRespValid := i.writeRespValid }

/-- A device that leaves the levels alone that the bench drives. -/
def Device.KeepsInputs {σ : Type} (d : Device σ) : Prop :=
  ∀ s p, (d.evaluate s p).2.inputs = p.inputs

namespace Rig

variable {σ τ κ : Type} {r : Rig σ τ κ} {b : Bench σ τ κ}

theorem clockTick_inputs (hkeep : r.device.KeepsInputs) :
    (r.clockTick b).bus.pins.inputs = (r.served b).pins.inputs := by
  rw [clockTick_bus]
  exact hkeep b.device (r.served b).pins

theorem served_clock : (r.served b).pins.clock = (r.clockTick b).clock := by
  have hdrive : (r.drive b).bus.pins.clock = (r.clockTick b).clock := clockTick_clock.symm
  rw [served_eq, ← hdrive]
  split
  next => rw [Bus.respond_pins]
  next => rfl

/-- A rising edge answers what the pins ask for. -/
theorem served_answers (hr : r.settings.schedule.risesAt b.tick = true) :
    (r.served b).pins.readDataValid = b.bus.pins.readAddrValid ∧
      (r.served b).pins.writeRespValid = Bus.writes b.bus.pins := by
  rw [served_eq, if_pos hr, Bus.respond_pins]
  exact ⟨rfl, rfl⟩

end Rig

end BusBench

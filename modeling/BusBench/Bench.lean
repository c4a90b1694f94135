import BusBench.Device
import BusBench.Report
import BusBench.Settings
import BusBench.Sink

namespace BusBench

/-- Reset, then running, then halted for good. -/
inductive Phase where
  | reset
  | running
  | halted
  deriving DecidableEq, Repr

def Phase.name : Phase → String
  | reset => "reset"
  | running => "running"
  | halted => "halted"

/-- Whether a step clocked the device. -/
inductive Progress where
  | continued
  | done
  deriving DecidableEq, Repr

/-- The parts of a bench that no run changes. -/
structure Rig (σ τ κ : Type) where
  device : Device σ
  trace : TraceSink τ
  coverage : CoverageSink κ
  settings : Settings

/-- A bench between two ticks. -/
structure Bench (σ τ κ : Type) where
  device : σ
  bus : Bus
  verdict : Option Verdict := none
  tick : Nat := 0
  phase : Phase := .reset
  clock : Bool := false
  trace : τ
  coverage : κ
  report : Option Report := none

namespace Rig

variable {σ τ κ : Type} (r : Rig σ τ κ)

/-- The bench at tick 0, with reset asserted and the clock low. -/
def start (device : σ) (pins : Pins) (memory : Memory) (trace : τ) (coverage : κ) :
    Except SettingsError (Bench σ τ κ) :=
  match r.settings.checkWith memory with
  | .error e => .error e
  | .ok () =>
    .ok
      { device
        bus := { pins := { pins with reset := true, clock := false }, memory }
        trace
        coverage }

/-- Why the run is over, if it is: a verdict counts before a finish, a finish before the timeout. -/
def termination (b : Bench σ τ κ) : Option Outcome :=
  match b.verdict with
  | some .pass => some .pass
  | some .fail => some (.fail .sentinel)
  | none =>
    if r.device.finished b.device b.bus.pins then some (.fail .noVerdict)
    else if r.settings.timeout ≤ b.tick then some (.fail .timeout)
    else none

/-- Drives reset and the clock for the current tick. -/
def drive (b : Bench σ τ κ) : Bench σ τ κ :=
  let reset := r.settings.schedule.resetAt b.tick
  let clock := b.clock != r.settings.schedule.togglesAt b.tick
  { b with
    phase := if b.phase = .reset ∧ !reset then .running else b.phase
    clock := clock
    bus.pins.reset := reset
    bus.pins.clock := clock }

/-- On a rising edge the bus is served and the sentinels are watched. -/
def serve (b : Bench σ τ κ) : Bench σ τ κ :=
  if r.settings.schedule.risesAt b.tick then
    let bus := b.bus.respond b.tick
    { b with bus, verdict := r.settings.sentinels.latch bus.pins b.verdict }
  else b

/-- Lets the device see the pins. -/
def evaluate (b : Bench σ τ κ) : Bench σ τ κ :=
  let (device, pins) := r.device.evaluate b.device b.bus.pins
  { b with device, bus.pins := pins }

/-- One tick up to the sinks. -/
def clockTick (b : Bench σ τ κ) : Bench σ τ κ := r.evaluate (r.serve (r.drive b))

/-- Shows the pins to the sinks and counts the tick, unless the trace fails. -/
def record (b : Bench σ τ κ) : Except Fault Progress × Bench σ τ κ :=
  match r.trace.sample b.tick b.bus.pins b.trace with
  | (.error e, trace) => (.error e, { b with trace })
  | (.ok (), trace) =>
    (.ok .continued,
      { b with
        trace
        coverage := r.coverage.sample b.tick b.bus.pins b.coverage
        tick := b.tick + 1 })

/-- Runs one tick, unless the run is over. -/
def step (b : Bench σ τ κ) : Except Fault Progress × Bench σ τ κ :=
  if b.phase = .halted ∨ (r.termination b).isSome then (.ok .done, { b with phase := .halted })
  else r.record (r.clockTick b)

/-- Steps until one does not continue, at most `fuel` times. -/
def steps : Nat → Bench σ τ κ → Except Fault Unit × Bench σ τ κ
  | 0, b => (.ok (), b)
  | fuel + 1, b =>
    match r.step b with
    | (.ok .continued, b) => steps fuel b
    | (.ok .done, b) => (.ok (), b)
    | (.error e, b) => (.error e, b)

/-- What a run from here reports. -/
def conclude (b : Bench σ τ κ) : Report :=
  ⟨(r.termination b).getD (.fail .noVerdict), b.tick, b.bus.stats⟩

/-- Closes the trace, finalizes the device and writes the coverage, whichever of them fail. -/
def teardown (b : Bench σ τ κ) : Except Fault Report × Bench σ τ κ :=
  let report := r.conclude b
  let (closed, trace) := r.trace.close b.trace
  let (device, pins) := r.device.finalize b.device b.bus.pins
  let (written, coverage) := r.coverage.write b.coverage
  (closed >>= fun _ => written >>= fun _ => .ok report,
    { b with
      device
      bus.pins := pins
      phase := .halted
      trace
      coverage
      report := some report })

/-- Runs to the end and tears down once; a later run repeats the report. -/
def run (b : Bench σ τ κ) : Except Fault Report × Bench σ τ κ :=
  match b.report with
  | some report => (.ok report, b)
  | none =>
    match r.steps (r.settings.timeout - b.tick + 1) b with
    | (.ok (), b) => r.teardown b
    | (.error e, b) => (.error e, (r.teardown { b with phase := .halted }).2)

end Rig

end BusBench

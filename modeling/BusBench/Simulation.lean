import BusBench.Bench
import BusBench.Config
import BusBench.MemoryImage
import BusBench.ReportText
import BusBench.Vcd
import BusBench.Workspace

namespace BusBench

/-- Why a run is not started or not recorded. -/
inductive SimulationError where
  | settings (error : SettingsError)
  | sink (fault : Fault)
  deriving DecidableEq, Repr

def SimulationError.message : SimulationError → String
  | .settings error => "invalid run configuration: " ++ error.message
  | .sink fault => "sink I/O error: " ++ fault.message

/-- Where a trace goes. -/
structure TraceTarget where
  path : Path
  compress : Bool := false
  timescale : String := "1ns"
  deriving DecidableEq, Repr

/-- What a run leaves in files. -/
structure Outputs where
  trace : Option TraceTarget := none
  coverage : Option Path := none
  deriving DecidableEq, Repr

namespace Outputs

/-- The dump to make. -/
def startTrace (o : Outputs) : Option Vcd := o.trace.map fun t => { timescale := t.timescale }

/-- The coverage to take. -/
def startCoverage (o : Outputs) : Option Coverage := o.coverage.map fun _ => {}

end Outputs

/-- A rig whose recordings stay in memory. -/
def recordingRig {σ : Type} (device : Device σ) (settings : Settings) :
    Rig σ (Option Vcd) (Option Coverage) :=
  ⟨device, Vcd.sink.optional, Coverage.sink.optional, settings⟩

section

variable {m : Type → Type} [Monad m] [Workspace m]

/-- Writes a file that a run asks for. -/
def save (path : Path) (content : Content) : ExceptT SimulationError m Unit := do
  match ← Workspace.write path content with
  | .ok () => pure ()
  | .error fault => throw (.sink fault)

/-- The content of a trace file. -/
def TraceTarget.content (t : TraceTarget) (text : String) : Content :=
  if t.compress then .packed text else .text text

/-- Writes the trace, then the coverage, of a run that was recorded. -/
def saveOutputs {σ : Type} (outputs : Outputs) (bench : Bench σ (Option Vcd) (Option Coverage)) :
    ExceptT SimulationError m Unit := do
  match outputs.trace, bench.trace with
  | some target, some vcd => save target.path (target.content vcd.medium.text)
  | _, _ => pure ()
  match outputs.coverage, bench.coverage with
  | some path, some coverage => save path (.text coverage.text)
  | _, _ => pure ()

/-- Runs a device against a memory; its trace file is made before the first tick. -/
def simulate {σ : Type} (device : Device σ) (start : σ) (pins : Pins) (memory : Memory)
    (settings : Settings) (outputs : Outputs) : ExceptT SimulationError m Report := do
  let rig := recordingRig device settings
  match rig.start start pins memory outputs.startTrace outputs.startCoverage with
  | .error e => throw (.settings e)
  | .ok bench =>
    match outputs.trace with
    | some target => save target.path (target.content "")
    | none => pure ()
    let (result, bench) := rig.run bench
    saveOutputs outputs bench
    match result with
    | .ok report => pure report
    | .error e => throw (.sink e)

end

end BusBench

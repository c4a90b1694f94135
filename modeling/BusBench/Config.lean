import BusBench.Path
import BusBench.Script
import BusBench.Settings

namespace BusBench

/-- Sentinels, timeout and clocking. -/
structure RunSection where
  passAddr : Option Word := none
  failAddr : Option Word := none
  timeout : Nat := 10000
  halfPeriod : Nat := 10
  resetTicks : Nat := 40
  deriving DecidableEq, Repr

/-- The mapped range, the fill word and the image to load. -/
structure MemorySection where
  lo : Word := 0
  hi : Word := 0xffffffff
  fill : Word := 0
  image : Option Path := none
  offset : Word := 0
  deriving DecidableEq, Repr

/-- Where and how a trace is recorded. -/
structure TraceSection where
  enabled : Bool := false
  path : Path := "waves.vcd"
  compress : Bool := false
  timescale : String := "1ns"
  deriving DecidableEq, Repr

/-- Where coverage is written, if anywhere. -/
structure CoverageSection where
  path : Option Path := none
  deriving DecidableEq, Repr

/-- An image that runs as a test; what is left out falls back to the common settings. -/
structure TestEntry where
  name : Option String := none
  image : Path
  disassembly : Option Path := none
  passAddr : Option Word := none
  failAddr : Option Word := none
  offset : Option Word := none
  timeout : Option Nat := none
  script : Option (List BusOp) := none
  deriving DecidableEq, Repr

/-- A whole configuration. -/
structure Config where
  run : RunSection := {}
  memory : MemorySection := {}
  trace : TraceSection := {}
  coverage : CoverageSection := {}
  script : List BusOp := []
  tests : List TestEntry := []
  deriving DecidableEq, Repr

/-- The name of a test: its own, else the stem of its image. -/
def TestEntry.displayName (t : TestEntry) : String :=
  t.name.getD (t.image.fileStem?.getD t.image)

end BusBench

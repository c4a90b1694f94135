import BusBench.Fault
import BusBench.Pins

namespace BusBench

/-- What records the pins of every tick; any call may fail and still leave its mark. -/
structure TraceSink (τ : Type) where
  sample : Nat → Pins → τ → Except Fault Unit × τ
  close : τ → Except Fault Unit × τ

/-- What measures the pins of every tick and is written out at the end. -/
structure CoverageSink (κ : Type) where
  sample : Nat → Pins → κ → κ
  write : κ → Except Fault Unit × κ

/-- No trace at all. -/
def TraceSink.none : TraceSink Unit := ⟨fun _ _ s => (.ok (), s), fun s => (.ok (), s)⟩

/-- No coverage at all. -/
def CoverageSink.none : CoverageSink Unit := ⟨fun _ _ s => s, fun s => (.ok (), s)⟩

/-- A sink that may be left out. -/
def TraceSink.optional {τ : Type} (t : TraceSink τ) : TraceSink (Option τ) where
  sample
    | tick, p, some s => (t.sample tick p s).map id some
    | _, _, Option.none => (.ok (), Option.none)
  close
    | some s => (t.close s).map id some
    | Option.none => (.ok (), Option.none)

/-- A sink that may be left out. -/
def CoverageSink.optional {κ : Type} (c : CoverageSink κ) : CoverageSink (Option κ) where
  sample tick p := Option.map (c.sample tick p)
  write
    | some s => (c.write s).map id some
    | Option.none => (.ok (), Option.none)

end BusBench

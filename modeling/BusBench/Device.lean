import BusBench.Pins

namespace BusBench

/-- A device under test: what it makes of its state and of the pins. -/
structure Device (σ : Type) where
  evaluate : σ → Pins → σ × Pins
  finished : σ → Pins → Bool
  finalize : σ → Pins → σ × Pins

namespace Device

variable {σ : Type} (d : Device σ)

/-- One clock cycle: an evaluation with the clock low, then one with it high. -/
def cycle (s : σ) (p : Pins) : σ × Pins :=
  let (s, p) := d.evaluate s { p with clock := false }
  d.evaluate s { p with clock := true }

/-- So many clock cycles. -/
def cycles : Nat → σ → Pins → σ × Pins
  | 0, s, p => (s, p)
  | n + 1, s, p =>
    let (s, p) := d.cycle s p
    cycles n s p

end Device

/-- A device that does nothing and never finishes. -/
def Device.silent : Device Unit := ⟨fun s p => (s, p), fun _ _ => false, fun s p => (s, p)⟩

end BusBench

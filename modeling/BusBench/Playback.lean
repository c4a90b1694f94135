import BusBench.Device

namespace BusBench

/-- Levels that go onto the pins at one evaluation. -/
structure Frame where
  turn : Nat
  levels : List (Pin × Word)
  deriving DecidableEq, Repr

/-- A device that replays recorded frames, whatever it is answered. -/
structure Playback where
  frames : List Frame
  finishAfter : Option Nat := none
  evaluations : Nat := 0
  finalizations : Nat := 0
  deriving DecidableEq, Repr

namespace Playback

/-- The levels of all frames of a turn. -/
def levelsAt (frames : List Frame) (turn : Nat) : List (Pin × Word) :=
  (frames.filter (·.turn = turn)).flatMap (·.levels)

/-- One evaluation plays the frames of its turn. -/
def evaluate (b : Playback) (p : Pins) : Playback × Pins :=
  ({ b with evaluations := b.evaluations + 1 }, p.setAll (levelsAt b.frames b.evaluations))

/-- Finished once evaluated often enough, if there is an end at all. -/
def finished (b : Playback) : Bool := b.finishAfter.any (· ≤ b.evaluations)

/-- A playback as a device. -/
def device : Device Playback where
  evaluate := evaluate
  finished b _ := b.finished
  finalize b p := ({ b with finalizations := b.finalizations + 1 }, p)

end Playback

end BusBench

import BusBench.Sink

namespace BusBench

/-- How often a trace was called, failed calls included. -/
structure CallCount where
  samples : Nat := 0
  closes : Nat := 0
  deriving DecidableEq, Repr

namespace CallCount

/-- A trace that keeps nothing but counts; it fails at one tick, and on being closed, if told to. -/
def sink (failAt : Option Nat) (failClose : Bool) : TraceSink CallCount where
  sample tick _ n :=
    (if failAt = some tick then .error (.refused "disk full") else .ok (),
      { n with samples := n.samples + 1 })
  close n :=
    (if failClose then .error (.refused "close failed") else .ok (),
      { n with closes := n.closes + 1 })

end CallCount

end BusBench

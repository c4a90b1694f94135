import BusBench.Pins

namespace BusBench

/-- The two addresses whose reading ends a run. -/
structure Sentinels where
  pass : Word
  fail : Word
  deriving DecidableEq, Repr

/-- Which sentinel was read. -/
inductive Verdict where
  | pass
  | fail
  deriving DecidableEq, Repr

namespace Sentinels

/-- The verdict of a pending read. -/
def sees (s : Sentinels) (p : Pins) : Option Verdict :=
  if !p.readAddrValid then none
  else if p.readAddr = s.pass then some .pass
  else if p.readAddr = s.fail then some .fail
  else none

/-- Watches for a sentinel until one was seen. -/
def observe (s : Sentinels) (p : Pins) : Option Verdict → Option Verdict
  | none => s.sees p
  | some _ => none

/-- The first verdict stays. -/
def latch (s : Sentinels) (p : Pins) (seen : Option Verdict) : Option Verdict :=
  seen <|> s.sees p

end Sentinels

end BusBench

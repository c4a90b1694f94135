import BusBench.Bus
import BusBench.Fault

namespace BusBench

/-- Why a run did not pass. -/
inductive FailReason where
  | sentinel
  | timeout
  | noVerdict
  deriving DecidableEq, Repr

/-- How a run ended. -/
inductive Outcome where
  | pass
  | fail (reason : FailReason)
  deriving DecidableEq, Repr

namespace Outcome

def passed : Outcome → Bool
  | pass => true
  | fail _ => false

/-- The exit status of a run. -/
def exitCode (o : Outcome) : Nat := if o.passed then 0 else 1

def message : Outcome → String
  | pass => "pass"
  | fail .sentinel => "fail (fail sentinel read)"
  | fail .timeout => "fail (timeout)"
  | fail .noVerdict => "fail (no verdict reached)"

end Outcome

/-- What a run leaves behind. -/
structure Report where
  outcome : Outcome
  ticks : Nat
  bus : BusStats
  deriving DecidableEq, Repr

end BusBench

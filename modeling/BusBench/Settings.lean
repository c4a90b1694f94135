import BusBench.Memory
import BusBench.Schedule
import BusBench.Sentinel

namespace BusBench

/-- What a run is asked for. -/
structure Settings where
  sentinels : Sentinels
  timeout : Nat := 10000
  schedule : Schedule := {}
  deriving DecidableEq, Repr

/-- Why a run is not started. -/
inductive SettingsError where
  | sameSentinels (addr : Word)
  | noHalfPeriod
  | noTimeout
  | emptyRange (lo hi : Word)
  deriving DecidableEq, Repr

def SettingsError.message : SettingsError → String
  | .sameSentinels addr => "pass and fail sentinels are both " ++ addr.hex
  | .noHalfPeriod => "half period must be non-zero"
  | .noTimeout => "timeout must be non-zero"
  | .emptyRange lo hi => "memory range <" ++ lo.hex ++ ", " ++ hi.hex ++ "> is empty"

namespace Settings

/-- The settings of a run must make sense on their own. -/
def check (s : Settings) : Except SettingsError Unit :=
  if s.sentinels.pass = s.sentinels.fail then .error (.sameSentinels s.sentinels.pass)
  else if s.schedule.halfPeriod = 0 then .error .noHalfPeriod
  else if s.timeout = 0 then .error .noTimeout
  else .ok ()

/-- They must also come with a memory that maps something. -/
def checkWith (s : Settings) (m : Memory) : Except SettingsError Unit :=
  match s.check with
  | .error e => .error e
  | .ok () => if m.hi < m.lo then .error (.emptyRange m.lo m.hi) else .ok ()

end Settings

end BusBench

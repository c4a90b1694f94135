import BusBench.CheckCommand
import BusBench.RegressCommand
import BusBench.RunCommand

namespace BusBench

/-- Carries out a command line: its exit status, or why it gave up. -/
def Invocation.execute {m : Type → Type} [Monad m] [Workspace m] (i : Invocation) :
    CommandM m Nat :=
  match i.command with
  | .run args => runCommand i.quiet i.config args
  | .regress args => regressCommand i.quiet i.config args
  | .check => checkCommand i.quiet i.config

end BusBench

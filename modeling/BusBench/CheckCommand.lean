import BusBench.Session

namespace BusBench

section

variable {m : Type → Type} [Monad m] [Workspace m]

/-- The sentinels as a remark names them. -/
def sentinelText (s : Sentinels) : String :=
  "pass " ++ s.pass.hex ++ ", fail " ++ s.fail.hex ++ ", "

/-- Checks the settings of a run, which tests of their own make needless. -/
def checkSettings (c : Config) : CommandM m String := do
  if c.tests.isEmpty || (c.run.passAddr.isSome && c.run.failAddr.isSome) then
    let settings ← attempt .config c.settings
    attempt (.simulation ∘ .settings) settings.check
    return sentinelText settings.sentinels
  else return ""

/-- Every test has its image, from the entry at place `n` on. -/
def checkImages (n : Nat) : List TestEntry → CommandM m Unit
  | [] => pure ()
  | t :: ts => do
    if ← Workspace.isFile t.image then checkImages (n + 1) ts
    else throw (.noImage n t.displayName t.image)

/-- Looks over a configuration and its image without a run. -/
def checkCommand (quiet : Bool) (config : Option String) : CommandM m Nat := do
  let (path, c) ← loadConfig config
  let (_, words) ← buildMemory c
  let sentinels ← checkSettings c
  checkImages 0 c.tests
  remark quiet
    ("   Checked " ++ path ++ ": " ++ sentinels ++ toString c.script.length ++ " script ops, " ++
      toString words ++ " image words, " ++ toString c.tests.length ++ " tests")
  return 0

end

end BusBench

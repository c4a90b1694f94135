import BusBench.Session

namespace BusBench

/-- The configuration with what the command line overrides. -/
def Config.override (c : Config) (a : RunArgs) : Config :=
  { c with
    run.passAddr := a.pass <|> c.run.passAddr
    run.failAddr := a.fail <|> c.run.failAddr
    run.timeout := a.timeout.getD c.run.timeout
    run.halfPeriod := a.halfPeriod.getD c.run.halfPeriod
    memory.image := a.image <|> c.memory.image
    memory.offset := a.offset.getD c.memory.offset
    trace.enabled := (c.trace.enabled || a.waves.isSome) && !a.noWaves
    trace.path := a.waves.getD c.trace.path
    coverage.path := a.coverage <|> c.coverage.path }

section

variable {m : Type → Type} [Monad m] [Workspace m]

/-- Writes lines to the output. -/
def sayAll : List String → CommandM m Unit
  | [] => pure ()
  | line :: lines => do
    Workspace.say line
    sayAll lines

/-- The last line of a run. -/
def verdictLine (o : Outcome) : String := if o.passed then "TEST PASS" else "TEST FAIL"

/-- Tells how a run ended and where its recordings are. -/
def reportRun (quiet json : Bool) (outputs : Outputs) (report : Report) :
    CommandM m Unit := do
  if json then Workspace.say (Json.pretty 0 report.document) else sayAll report.lines
  match outputs.trace with
  | some target => remark quiet ("   Trace written to " ++ target.path)
  | none => pure ()
  match outputs.coverage with
  | some path => remark quiet ("   Coverage written to " ++ path)
  | none => pure ()
  if json then Workspace.warn (verdictLine report.outcome)
  else Workspace.say (verdictLine report.outcome)

/-- Plays the script of a configuration and reports the run. -/
def runCommand (quiet : Bool) (config : Option String) (args : RunArgs) : CommandM m Nat := do
  let (path, c) ← loadConfig config
  let c := c.override args
  attempt .config c.check
  let (memory, words) ← buildMemory c
  let settings ← attempt .config c.settings
  ensureFolders c.outputs
  remark quiet
    ("   Simulating " ++ path ++ " (" ++ toString c.script.length ++ " script ops, " ++
      toString words ++ " image words)")
  let report ← playScript c.script memory settings c.outputs
  reportRun quiet args.json c.outputs report
  return report.outcome.exitCode

end

end BusBench

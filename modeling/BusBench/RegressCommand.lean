import BusBench.Session

namespace BusBench

/-- How one test ended. -/
inductive TestStatus where
  | pass
  | fail
  | error
  deriving DecidableEq, Repr

def TestStatus.name : TestStatus → String
  | pass => "PASS"
  | fail => "FAIL"
  | error => "ERROR"

/-- A row of the result table; a test that could not be set up has no sentinels and no ticks. -/
structure TestResult where
  name : String
  status : TestStatus
  sentinels : Option Sentinels := none
  ticks : Option Nat := none
  detail : Option String := none
  deriving DecidableEq, Repr

/-- A text with blanks behind it up to a width. -/
def padEnd (width : Nat) (s : String) : String :=
  s ++ String.ofList (List.replicate (width - s.length) ' ')

/-- A text with blanks before it up to a width. -/
def padStart (width : Nat) (s : String) : String :=
  String.ofList (List.replicate (width - s.length) ' ') ++ s

namespace TestResult

def header : List String :=
  ["RESULT | PASS       | FAIL       | TICKS    | TEST",
   "-------|------------|------------|----------|--------------------"]

/-- The line of a row. -/
def row (r : TestResult) : String :=
  padEnd 6 r.status.name ++ " | " ++
  padEnd 10 (r.sentinels.elim "-" (·.pass.hex)) ++ " | " ++
  padEnd 10 (r.sentinels.elim "-" (·.fail.hex)) ++ " | " ++
  padStart 8 (r.ticks.elim "-" toString) ++ " | " ++
  r.name ++ r.detail.elim "" (": " ++ ·)

/-- The row of a test that ran. -/
def ofReport (name : String) (sentinels : Sentinels) (r : Report) : TestResult :=
  if r.outcome.passed then ⟨name, .pass, some sentinels, some r.ticks, none⟩
  else ⟨name, .fail, some sentinels, some r.ticks, some r.outcome.message⟩

/-- The row of a test that could not be run. -/
def ofError (name : String) (e : CommandError) : TestResult :=
  ⟨name, .error, none, none, some e.message⟩

/-- The number of rows that ended so. -/
def count (s : TestStatus) (rs : List TestResult) : Nat := rs.countP (·.status = s)

/-- The line below a table. -/
def summary (rs : List TestResult) : String :=
  "   Result: " ++ toString (count .pass rs) ++ " passed, " ++ toString (count .fail rs) ++
    " failed, " ++ toString (count .error rs) ++ " errored out of " ++ toString rs.length ++
    " test(s)"

end TestResult

/-- A test is named in full, or by a part of its name. -/
def RegressArgs.selects (a : RegressArgs) (t : TestEntry) : Bool :=
  match a.name, a.filter with
  | some name, _ => t.displayName == name
  | none, some part => occursIn part.toList t.displayName.toList
  | none, none => true

/-- The entries to run with their places in the file. -/
def RegressArgs.select (a : RegressArgs) (ts : List TestEntry) : List (TestEntry × Nat) :=
  ts.zipIdx.filter fun (t, _) => a.selects t

/-- The output file of a test: its name with all extensions of the common one. -/
def Path.forTest (p : Path) (name : String) : Path :=
  p.withFileName (name ++ String.ofList ((p.fileName?.getD "").toList.dropWhile (· != '.')))

/-- The outputs of a test, which may not be traced. -/
def Outputs.forTest (o : Outputs) (name : String) (waves : Bool) : Outputs where
  trace := if waves then o.trace.map fun t => { t with path := t.path.forTest name } else none
  coverage := o.coverage.map (·.forTest name)

/-- The sentinel of an entry: its own, that of its listing, or the common one. -/
def effective (own label common : Option Word) : Option Word := own <|> label <|> common

/-- The configuration of one entry on top of the common one. -/
def Config.forTest (c : Config) (t : TestEntry) (labels : Labels) : Config :=
  { c with
    run.passAddr := effective t.passAddr labels.pass c.run.passAddr
    run.failAddr := effective t.failAddr labels.fail c.run.failAddr
    run.timeout := t.timeout.getD c.run.timeout
    memory.image := some t.image
    memory.offset := t.offset.getD c.memory.offset
    script := t.script.getD c.script
    tests := [] }

/-- Both sentinels of the entry at a place must be known before anything else is checked. -/
def Config.checkTest (c : Config) (index : Nat) : Except ConfigError Unit :=
  if c.run.passAddr.isNone then .error (.missingSentinel (itemKey "test" index ".pass_addr"))
  else if c.run.failAddr.isNone then .error (.missingSentinel (itemKey "test" index ".fail_addr"))
  else c.check

section

variable {m : Type → Type} [Monad m] [Workspace m]

/-- The sentinels that the listing of an entry names. -/
def readLabels (t : TestEntry) : CommandM m Labels := do
  match t.disassembly with
  | none => return {}
  | some path =>
    let text ← Workspace.read path
    let text ← attempt (.listingFile path) text
    attempt (.label path) (Labels.ofListing text)

/-- The configuration of the entry at a place. -/
def testConfig (c : Config) (index : Nat) (t : TestEntry) : CommandM m Config := do
  let labels ← readLabels t
  let c := c.forTest t labels
  attempt .config (c.checkTest index)
  return c

/-- Runs one entry. -/
def runTest (c : Config) (waves : Bool) (index : Nat) (t : TestEntry) :
    CommandM m (Sentinels × Report) := do
  let c ← testConfig c index t
  let (memory, _) ← buildMemory c
  let settings ← attempt .config c.settings
  let outputs := c.outputs.forTest t.displayName waves
  ensureFolders outputs
  let report ← playScript c.script memory settings outputs
  return (settings.sentinels, report)

/-- Runs one entry; whatever goes wrong makes a row. -/
def testRow (c : Config) (waves : Bool) (index : Nat) (t : TestEntry) : m TestResult := do
  match ← (runTest c waves index t).run with
  | .ok (sentinels, report) => return .ofReport t.displayName sentinels report
  | .error e => return .ofError t.displayName e

/-- Runs entries one after the other, each with its row. -/
def testRows (c : Config) (waves : Bool) : List (TestEntry × Nat) → m (List TestResult)
  | [] => return []
  | (t, index) :: ts => do
    let r ← testRow c waves index t
    Workspace.say r.row
    return r :: (← testRows c waves ts)

/-- Runs the selected tests and prints a table of them. -/
def regressCommand (quiet : Bool) (config : Option String) (args : RegressArgs) :
    CommandM m Nat := do
  let (path, c) ← loadConfig config
  if c.tests.isEmpty then
    remark quiet ("warning: no [[test]] entries in " ++ path)
    return 0
  else
    let selected := args.select c.tests
    if selected.isEmpty then
      remark quiet "warning: no tests match the given filter"
      return 0
    else
      remark quiet
        ("   Running " ++ toString selected.length ++ " test(s) from " ++ path)
      TestResult.header.forM Workspace.say
      let rows ← testRows c (!args.noWaves) selected
      remark quiet ""
      remark quiet (TestResult.summary rows)
      return if TestResult.count .pass rows = rows.length then 0 else 1

end

end BusBench

import BusBench.CommandLine
import BusBench.ConfigText
import BusBench.Listing
import BusBench.Master
import BusBench.Simulation

namespace BusBench

/-- Why a command gives up. -/
inductive CommandError where
  | noConfig (path : Path)
  | config (error : ConfigError)
  | imageFile (path : Path) (fault : Fault)
  | image (error : PreloadError)
  | folder (fault : Fault)
  | simulation (error : SimulationError)
  | noImage (index : Nat) (name : String) (path : Path)
  | listingFile (path : Path) (fault : Fault)
  | label (path : Path) (error : LabelError)

def CommandError.message : CommandError → String
  | .noConfig path => "could not find configuration file " ++ path
  | .config error => error.message
  | .imageFile path fault => "failed to read memory image " ++ path ++ ": " ++ fault.message
  | .image error => error.message
  | .folder fault => fault.message
  | .simulation error => error.message
  | .noImage index name path =>
    "test[" ++ toString index ++ "] (" ++ name ++ "): image " ++ path ++ " not found"
  | .listingFile path fault => "cannot read disassembly " ++ path ++ ": " ++ fault.message
  | .label path error => path ++ ": " ++ error.message

namespace Config

/-- The name of a configuration file when none is given. -/
def fileName : Path := "cyclebench.toml"

/-- The settings of a run, for which both sentinels must be known. -/
def settings (c : Config) : Except ConfigError Settings :=
  match c.run.passAddr, c.run.failAddr with
  | none, _ => .error (.missingSentinel "run.pass_addr")
  | _, none => .error (.missingSentinel "run.fail_addr")
  | some pass, some fail =>
    .ok
      { sentinels := ⟨pass, fail⟩
        timeout := c.run.timeout
        schedule := ⟨c.run.halfPeriod, c.run.resetTicks⟩ }

/-- The files that a run leaves. -/
def outputs (c : Config) : Outputs where
  trace :=
    if c.trace.enabled then some ⟨c.trace.path, c.trace.compress, c.trace.timescale⟩ else none
  coverage := c.coverage.path

/-- The memory before its image is loaded. -/
def emptyMemory (c : Config) : Memory := .empty c.memory.lo c.memory.hi c.memory.fill

end Config

section

variable {m : Type → Type} [Monad m] [Workspace m]

/-- The steps of a command. -/
abbrev CommandM (m : Type → Type) := ExceptT CommandError m

/-- Goes on with a result or gives up with its error. -/
def attempt {ε α : Type} (wrap : ε → CommandError) : Except ε α → CommandM m α
  | .ok a => pure a
  | .error e => throw (wrap e)

/-- Reads a configuration file; its relative paths start from its folder. -/
def readConfig (path : Path) : CommandM m Config := do
  let text ← Workspace.read path
  let text ← attempt (fun fault => .config (.unreadable path fault)) text
  let c ← attempt .config (Config.ofToml text)
  return c.anchor (path.parent?.getD "")

/-- The configuration file that is asked for, which may be named by its folder. -/
def configPath (given : Option String) : CommandM m Path := do
  let here ← Workspace.here
  let path := given.getD (Path.join here Config.fileName)
  return if ← Workspace.isFolder path then Path.join path Config.fileName else path

/-- Finds and reads the configuration. -/
def loadConfig (given : Option String) : CommandM m (Path × Config) := do
  let path ← configPath given
  if ← Workspace.exists? path then
    return (path, ← readConfig path)
  else throw (.noConfig path)

/-- The memory with its image, and the number of words loaded. -/
def buildMemory (c : Config) : CommandM m (Memory × Nat) := do
  match c.memory.image with
  | none => return (c.emptyMemory, 0)
  | some path =>
    let text ← Workspace.read path
    let text ← attempt (.imageFile path) text
    attempt .image (c.emptyMemory.preload text c.memory.offset)

/-- Makes the folder that a file is to be put in. -/
def ensureFolder (path : Path) : CommandM m Unit := do
  match path.parent? with
  | none => pure ()
  | some folder =>
    if folder.isEmpty then pure ()
    else
      let made ← Workspace.makeFolders folder
      attempt .folder made

/-- Makes the folders of all files that a run leaves. -/
def ensureFolders (o : Outputs) : CommandM m Unit := do
  match o.trace with
  | some target => ensureFolder target.path
  | none => pure ()
  match o.coverage with
  | some path => ensureFolder path
  | none => pure ()

/-- Plays a script against a memory. -/
def playScript (script : List BusOp) (memory : Memory) (settings : Settings) (outputs : Outputs) :
    CommandM m Report :=
  (simulate Master.device { ops := script, sentinels := settings.sentinels } {} memory settings
    outputs).adapt .simulation

/-- A line for people, unless they want none. -/
def remark (quiet : Bool) (line : String) : CommandM m Unit :=
  if quiet then pure () else Workspace.warn line

end

end BusBench

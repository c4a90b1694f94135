import BusBench.Gzip
import BusBench.Invocation
import BusBench.UsageText

namespace BusBench

/-- The number and the text of a system error. -/
def errorDetails : IO.Error → Option (UInt32 × String)
  | .alreadyExists _ code text => some (code, text)
  | .otherError code text => some (code, text)
  | .resourceBusy code text => some (code, text)
  | .resourceVanished code text => some (code, text)
  | .unsupportedOperation code text => some (code, text)
  | .hardwareFault code text => some (code, text)
  | .unsatisfiedConstraints code text => some (code, text)
  | .illegalOperation code text => some (code, text)
  | .protocolError code text => some (code, text)
  | .timeExpired code text => some (code, text)
  | .interrupted _ code text => some (code, text)
  | .noFileOrDirectory _ code text => some (code, text)
  | .invalidArgument _ code text => some (code, text)
  | .permissionDenied _ code text => some (code, text)
  | .resourceExhausted _ code text => some (code, text)
  | .inappropriateType _ code text => some (code, text)
  | .noSuchThing _ code text => some (code, text)
  | .unexpectedEof => none
  | .userError _ => none

/-- The fault behind a system error, whose number may be given with a minus sign. -/
def faultOf (e : IO.Error) : Fault :=
  match errorDetails e with
  | none => .refused (toString e)
  | some (code, text) =>
    let code := if code < 0x80000000 then code else 0 - code
    if code = 2 then .notFound
    else if code = 17 then .exists
    else if code = 20 then .notFolder
    else if code = 21 then .isFolder
    else if code = 36 then .nameTooLong
    else .refused (text ++ " (os error " ++ toString code.toNat ++ ")")

/-- The result of an action, or the fault that stopped it. -/
def guarded {α : Type} (act : IO α) : IO (Except Fault α) := do
  match ← act.toBaseIO with
  | .ok a => return .ok a
  | .error e => return .error (faultOf e)

def readText (path : Path) : IO (Except Fault String) := do
  match ← guarded (IO.FS.readBinFile path) with
  | .error fault => return .error fault
  | .ok bytes =>
    match String.fromUTF8? bytes with
    | some text => return .ok text
    | none => return .error .notText

/-- The bytes of a file. -/
def contentBytes : Content → ByteArray
  | .text s => s.toUTF8
  | .packed s => ⟨(Gzip.file s.toUTF8.toList).toArray⟩
  | .bytes => .empty

/-- What a path leads to, if anything, asked a question. -/
def probe (path : Path) (isFolder : Bool) : IO Bool := do
  if (FileTree.pathFault? path).isSome then return false
  else
    match ← guarded (IO.FS.realPath path) with
    | .error _ => return false
    | .ok found => return (← found.isDir) == isFolder

/-- The files and streams of the system. -/
instance : Workspace IO where
  here := do return toString (← IO.currentDir)
  exists? path := do return (← probe path true) || (← probe path false)
  isFolder path := probe path true
  isFile path := probe path false
  read := readText
  write path content := guarded (IO.FS.writeBinFile path (contentBytes content))
  makeFolders path := guarded (IO.FS.createDirAll path)
  say line := IO.println line
  warn line := IO.eprintln line

/-- Runs a command line: the exit status, after all output. -/
def runArguments (args : List String) : IO UInt32 := do
  match CommandLine.parse args with
  | .error usage =>
    if usage.wanted then IO.print usage.text else IO.eprint usage.text
    return UInt32.ofNat usage.exitCode
  | .ok invocation =>
    let command : CommandM IO Nat := invocation.execute
    match ← command.run with
    | .ok code => return UInt32.ofNat code
    | .error e =>
      IO.eprintln ("error: " ++ e.message)
      return 1

end BusBench

def main (args : List String) : IO UInt32 := BusBench.runArguments args

import BusBench.FileTree

namespace BusBench

/-- What a command needs of its surroundings: files and two streams of lines. -/
class Workspace (m : Type → Type) where
  here : m Path
  exists? : Path → m Bool
  isFolder : Path → m Bool
  isFile : Path → m Bool
  read : Path → m (Except Fault String)
  write : Path → Content → m (Except Fault Unit)
  makeFolders : Path → m (Except Fault Unit)
  say : String → m Unit
  warn : String → m Unit

/-- A computation that may fail has the surroundings of the one below it. -/
instance {ε : Type} {m : Type → Type} [Monad m] [Workspace m] : Workspace (ExceptT ε m) where
  here := ExceptT.lift Workspace.here
  exists? p := ExceptT.lift (Workspace.exists? p)
  isFolder p := ExceptT.lift (Workspace.isFolder p)
  isFile p := ExceptT.lift (Workspace.isFile p)
  read p := ExceptT.lift (Workspace.read p)
  write p content := ExceptT.lift (Workspace.write p content)
  makeFolders p := ExceptT.lift (Workspace.makeFolders p)
  say line := ExceptT.lift (Workspace.say line)
  warn line := ExceptT.lift (Workspace.warn line)

/-- Files held in memory with the text of both streams. -/
structure Scene where
  files : FileTree := {}
  out : String := ""
  err : String := ""
  deriving Repr, Inhabited

namespace Scene

/-- Keeps the files as they are if a change of them fails. -/
def change (f : FileTree → Except Fault FileTree) (s : Scene) : Except Fault Unit × Scene :=
  match f s.files with
  | .ok files => (.ok (), { s with files })
  | .error e => (.error e, s)

instance : Workspace (StateM Scene) where
  here := fun s => ("/" ++ "/".intercalate s.files.here, s)
  exists? p := fun s => (s.files.exists? p, s)
  isFolder p := fun s => (s.files.isFolder p, s)
  isFile p := fun s => (s.files.isFile p, s)
  read p := fun s => (s.files.read p, s)
  write p content := change (·.write p content)
  makeFolders p := change (·.makeFolders p.length p)
  say line := fun s => ((), { s with out := s.out ++ line ++ "\n" })
  warn line := fun s => ((), { s with err := s.err ++ line ++ "\n" })

end Scene

end BusBench

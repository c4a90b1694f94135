import BusBench.Fault
import BusBench.Path

namespace BusBench

/-- What a file holds: text, the same compressed, or bytes that are no text. -/
inductive Content where
  | text (s : String)
  | packed (s : String)
  | bytes
  deriving DecidableEq, Repr

/-- Only plain text can be read as text. -/
def Content.read : Content → Except Fault String
  | text s => .ok s
  | packed _ => .error .notText
  | bytes => .error .notText

/-- A file, or a folder of named ones. -/
inductive FileNode where
  | file (content : Content)
  | folder (entries : List (String × FileNode))
  deriving Repr, Inhabited

namespace FileNode

/-- The node at the end of a chain of names. -/
def at? : List String → FileNode → Option FileNode
  | [], n => some n
  | _ :: _, .file _ => none
  | name :: names, .folder entries =>
    match entries.lookup name with
    | some n => at? names n
    | none => none

/-- Puts an entry in its place, or at the end. -/
def putEntry (name : String) (n : FileNode) : List (String × FileNode) → List (String × FileNode)
  | [] => [(name, n)]
  | (l, m) :: es => if l = name then (l, n) :: es else (l, m) :: putEntry name n es

/-- Puts a node at the end of a chain of names whose folders are there. -/
def putAt (new : FileNode) : List String → FileNode → FileNode
  | [], _ => new
  | _ :: _, .file content => .file content
  | name :: names, .folder entries =>
    .folder (putEntry name (putAt new names ((entries.lookup name).getD (.folder []))) entries)

def isFolder : FileNode → Bool
  | folder _ => true
  | file _ => false

end FileNode

/-- All files, and the folder that paths start from. -/
structure FileTree where
  root : FileNode := .folder []
  here : List String := []
  deriving Repr, Inhabited

namespace FileTree

/-- The greatest number of bytes in a name. -/
def nameLimit : Nat := 255

/-- The greatest number of bytes in a whole path. -/
def pathLimit : Nat := 4095

/-- What makes a path useless before anything is looked up. -/
def pathFault? (p : Path) : Option Fault :=
  if p.toList.contains '\x00' then some .nulInName
  else if p.isEmpty then some .notFound
  else if pathLimit < p.utf8ByteSize then some .nameTooLong
  else none

/-- Follows the parts of a path from a folder: what it leads to is given by the names from
the root on. -/
def walk (t : FileTree) (names : List String) : List (List Char) → Except Fault (List String)
  | [] => .ok names
  | s :: ss =>
    match t.root.at? names with
    | none => .error .notFound
    | some (.file _) => .error .notFolder
    | some (.folder entries) =>
      let name := String.ofList s
      if Path.idle s then walk t names ss
      else if s = ['.', '.'] then walk t names.dropLast ss
      else if nameLimit < name.utf8ByteSize then .error .nameTooLong
      else if (entries.lookup name).isNone then .error .notFound
      else walk t (names ++ [name]) ss

/-- The folder that a path starts from. -/
def origin (t : FileTree) (p : Path) : List String := if p.isAbsolute then [] else t.here

/-- What a path leads to, as names from the root on. -/
def find (t : FileTree) (p : Path) : Except Fault (List String) :=
  match pathFault? p with
  | some e => .error e
  | none => t.walk (t.origin p) p.parts

def node? (t : FileTree) (p : Path) : Option FileNode :=
  match t.find p with
  | .ok names => t.root.at? names
  | .error _ => none

def exists? (t : FileTree) (p : Path) : Bool := (t.node? p).isSome

def isFolder (t : FileTree) (p : Path) : Bool := (t.node? p).any FileNode.isFolder

def isFile (t : FileTree) (p : Path) : Bool := (t.node? p).any fun n => !n.isFolder

/-- Reads a whole file as text. -/
def read (t : FileTree) (p : Path) : Except Fault String :=
  match t.find p with
  | .error e => .error e
  | .ok names =>
    match t.root.at? names with
    | some (.file content) => content.read
    | some (.folder _) => .error .isFolder
    | none => .error .notFound

/-- Where a path would put a new entry: its folder, its name, and whether a slash follows
the name. -/
structure Site where
  folder : List String
  name : List Char
  slash : Bool

/-- Finds the folder of the last part of a path. -/
def site (t : FileTree) (p : Path) : Except Fault Site :=
  match pathFault? p with
  | some e => .error e
  | none =>
    let parts := p.parts.reverse
    let slashes := parts.takeWhile (·.isEmpty)
    match parts.dropWhile (·.isEmpty) with
    | [] => .ok ⟨[], ['.'], true⟩
    | name :: before =>
      match t.walk (t.origin p) before.reverse with
      | .error e => .error e
      | .ok folder =>
        match t.root.at? folder with
        | some (.folder _) => .ok ⟨folder, name, !slashes.isEmpty⟩
        | _ => .error .notFolder

/-- Makes a file hold something, whatever it held before. -/
def write (t : FileTree) (p : Path) (content : Content) : Except Fault FileTree :=
  match t.site p with
  | .error e => .error e
  | .ok s =>
    let name := String.ofList s.name
    if s.slash ∨ s.name = ['.'] ∨ s.name = ['.', '.'] then .error .isFolder
    else if nameLimit < name.utf8ByteSize then .error .nameTooLong
    else
      match t.root.at? (s.folder ++ [name]) with
      | some (.folder _) => .error .isFolder
      | _ => .ok { t with root := FileNode.putAt (.file content) (s.folder ++ [name]) t.root }

/-- Makes one new folder. -/
def makeFolder (t : FileTree) (p : Path) : Except Fault FileTree :=
  match t.site p with
  | .error e => .error e
  | .ok s =>
    let name := String.ofList s.name
    if s.name = ['.'] ∨ s.name = ['.', '.'] then .error .exists
    else if nameLimit < name.utf8ByteSize then .error .nameTooLong
    else
      match t.root.at? (s.folder ++ [name]) with
      | some _ => .error .exists
      | none => .ok { t with root := FileNode.putAt (.folder []) (s.folder ++ [name]) t.root }

/-- Makes a folder and those it lies in; one that is there already will do. -/
def makeFolders (fuel : Nat) (t : FileTree) (p : Path) : Except Fault FileTree :=
  if p.isEmpty then .ok t
  else
    match t.makeFolder p with
    | .ok t => .ok t
    | .error .notFound =>
      match fuel, p.parent? with
      | fuel + 1, some parent =>
        match makeFolders fuel t parent with
        | .error e => .error e
        | .ok t =>
          match t.makeFolder p with
          | .ok t => .ok t
          | .error e => if t.isFolder p then .ok t else .error e
      | _, _ => .error (.refused "failed to create whole tree")
    | .error e => if t.isFolder p then .ok t else .error e

end FileTree

end BusBench

namespace BusBench

/-- The name of a file or folder, its parts parted by slashes. -/
abbrev Path := String

namespace Path

/-- The parts of a path, empty ones included; an absolute path starts with an empty part. -/
def split : List Char → List (List Char)
  | [] => [[]]
  | c :: cs =>
    if c = '/' then [] :: split cs
    else
      match split cs with
      | [] => [[c]]
      | s :: ss => (c :: s) :: ss

/-- The parts with slashes between them. -/
def unite : List (List Char) → List Char
  | [] => []
  | [s] => s
  | s :: ss => s ++ '/' :: unite ss

def parts (p : Path) : List (List Char) := split p.toList

def isAbsolute (p : Path) : Bool := p.toList.head? == some '/'

/-- An absolute path stays; another one is put behind the base with one slash between. -/
def join (base p : Path) : Path :=
  if p.isAbsolute then p
  else if base.isEmpty || base.toList.getLast? == some '/' then base ++ p
  else base ++ "/" ++ p

/-- A part that names nothing of its own. -/
def idle (s : List Char) : Bool := s.isEmpty || s == ['.']

/-- Parts in reverse without those at the end that name nothing; the first part of all
always counts. -/
def trimEnd : List (List Char) → List (List Char)
  | [] => []
  | [s] => [s]
  | s :: t :: ss => if idle s then trimEnd (t :: ss) else s :: t :: ss

/-- The last part that counts and the parts before it, in reverse; the root has none. -/
def uncons? (p : Path) : Option (List Char × List (List Char)) :=
  match trimEnd p.parts.reverse with
  | [] => none
  | s :: ss => if s.isEmpty then none else some (s, ss)

/-- The path of a reversed list of parts: only the root may be left with an empty first part. -/
def ofReversed (ss : List (List Char)) : Path :=
  match trimEnd ss with
  | [] => ""
  | [[]] => "/"
  | ss => String.ofList (unite ss.reverse)

/-- The folder that a path lies in, by its text alone. -/
def parent? (p : Path) : Option Path := p.uncons?.map fun (_, ss) => ofReversed ss

/-- The last part, if it is a name. -/
def fileName? (p : Path) : Option String :=
  match p.uncons? with
  | some (s, _) => if s = ['.'] ∨ s = ['.', '.'] then none else some (String.ofList s)
  | none => none

/-- A name without the last point in it and what follows; a point in front is part of the name. -/
def stem (name : String) : String :=
  let cs := name.toList
  match cs.reverse.dropWhile (· != '.') with
  | [] => name
  | [_] => name
  | _ :: before => if name = ".." then name else String.ofList before.reverse

/-- The last part without its extension. -/
def fileStem? (p : Path) : Option String := p.fileName?.map stem

/-- The path with another last part. -/
def withFileName (p : Path) (name : String) : Path :=
  match p.fileName?, p.parent? with
  | some _, some folder => folder.join name
  | _, _ => p.join name

end Path

end BusBench

import BusBench.TomlScalar
import BusBench.TomlTable
import BusBench.TomlText

namespace BusBench

namespace Toml

/-- Lists, tables and keys have fewer levels than this. -/
def depthLimit : Nat := 80

/-- A key with a tolerable number of parts. -/
def path? (cs : List Char) : Option (List String × List Char) := do
  let (ks, cs) ← key? (cs.length + 1) cs
  if ks.length < depthLimit then some (ks, cs) else none

/-- Skips blanks, comments and ends of lines. -/
def skipLines : Nat → List Char → List Char
  | 0, cs => cs
  | fuel + 1, cs =>
    match newline? (skipComment (skipBlanks cs)) with
    | some cs => skipLines fuel cs
    | none => skipBlanks cs

/-- A character of a value without quotes. -/
def isScalar (c : Char) : Bool :=
  c.isAlphanum || c = '_' || c = '-' || c = '+' || c = '.' || c = ':'

/-- A value without quotes; a day may be parted from its time by one blank. -/
def scalarValue? (cs : List Char) : Option (Document × List Char) :=
  let (token, rest) := cs.span isScalar
  let (time, after) := (rest.drop 1).span isScalar
  let moment := token ++ ' ' :: time
  if rest.head? = some ' ' ∧ isDate token ∧ isMoment moment then some (Toml.moment moment, after)
  else (scalar? token).map fun d => (d, rest)

mutual

/-- A value in front of a text, with so many levels left for what it is made of. -/
def value : Nat → Nat → List Char → Option (Document × List Char)
  | 0, _, _ => none
  | fuel + 1, levels, cs =>
    match cs with
    | '\x22' :: _ => (text? cs).map fun (s, cs) => (.text s, cs)
    | '\x27' :: _ => (text? cs).map fun (s, cs) => (.text s, cs)
    | '[' :: cs =>
      match levels with
      | 0 => none
      | levels + 1 => (items fuel levels cs).map fun (ds, cs) => (.list ds, cs)
    | '\x7b' :: cs =>
      match levels with
      | 0 => none
      | levels + 1 =>
        match skipBlanks cs with
        | '\x7d' :: cs => some (.table [], cs)
        | cs => (entries fuel levels [] cs).map fun (es, cs) => (.table (entryDocuments es), cs)
    | cs => scalarValue? cs

/-- The items of a list up to its bracket. -/
def items : Nat → Nat → List Char → Option (List Document × List Char)
  | 0, _, _ => none
  | fuel + 1, levels, cs =>
    match skipLines (cs.length + 1) cs with
    | ']' :: cs => some ([], cs)
    | cs => do
      let (d, cs) ← value fuel levels cs
      match skipLines (cs.length + 1) cs with
      | ',' :: cs => (items fuel levels cs).map fun (ds, cs) => (d :: ds, cs)
      | ']' :: cs => some ([d], cs)
      | _ => none

/-- The entries of a table on one line up to its brace. -/
def entries : Nat → Nat → Entries → List Char → Option (Entries × List Char)
  | 0, _, _, _ => none
  | fuel + 1, levels, es, cs => do
    let (ks, cs) ← path? cs
    match cs with
    | '=' :: cs =>
      let (d, cs) ← value fuel levels (skipBlanks cs)
      let es ← put d true ks es
      match skipBlanks cs with
      | ',' :: cs => entries fuel levels es cs
      | '\x7d' :: cs => some (es, cs)
      | _ => none
    | _ => none

end

/-- The rest after what may stand behind a statement on its line. -/
def lineEnd? (cs : List Char) : Option (List Char) :=
  match skipComment (skipBlanks cs) with
  | [] => some []
  | cs => newline? cs

/-- Applies a statement to the table that a header path leads to. -/
def atHeader (header : List String) (f : Entries → Option Entries) (root : Entries) :
    Option Entries :=
  within f header root

/-- A header opens the table or list item that its last part names. -/
def openAt (ks : List String) (f : String → Entries → Option Entries) (root : Entries) :
    Option Entries :=
  match ks.reverse with
  | [] => none
  | k :: before => atHeader before.reverse (f k) root

/-- Reads statements: headers, and entries of the table opened last. -/
def statements : Nat → List String → Entries → List Char → Option Entries
  | 0, _, _, _ => none
  | fuel + 1, header, root, cs =>
    match skipLines (cs.length + 1) cs with
    | [] => some root
    | '#' :: cs => if (cs.dropWhile isPlain).isEmpty then some root else none
    | '[' :: '[' :: cs => do
      let (ks, cs) ← path? cs
      match cs with
      | ']' :: ']' :: cs =>
        let root ← openAt ks openItem root
        statements fuel ks root (← lineEnd? cs)
      | _ => none
    | '[' :: cs => do
      let (ks, cs) ← path? cs
      match cs with
      | ']' :: cs =>
        let root ← openAt ks openTable root
        statements fuel ks root (← lineEnd? cs)
      | _ => none
    | cs => do
      let (ks, cs) ← path? cs
      match cs with
      | '=' :: cs =>
        let cs := skipBlanks cs
        let (d, cs) ← value (cs.length + 1) (depthLimit - 1) cs
        let root ← atHeader header (put d true ks) root
        statements fuel header root (← lineEnd? cs)
      | _ => none

/-- A text without the mark that may start it. -/
def dropMark : List Char → List Char
  | '\ufeff' :: cs => cs
  | cs => cs

/-- Reads a whole text as one table. -/
def parse (text : String) : Option Document := do
  let cs := dropMark text.toList
  let root ← statements (cs.length + 1) [] [] cs
  some (.table (entryDocuments root))

end Toml

end BusBench

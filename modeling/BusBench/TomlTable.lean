import BusBench.Document

namespace BusBench

namespace Toml

/-- How a table came to be: by a header of its own, on the way to another one, or by a
dotted key. -/
inductive Origin where
  | header
  | implied
  | dotted
  deriving DecidableEq, Repr

/-- What a key of a table under construction holds. -/
inductive Node where
  | value (d : Document)
  | table (origin : Origin) (entries : List (String × Node))
  | tables (items : List (List (String × Node)))

/-- A table under construction, its entries in the order of the text. -/
abbrev Entries := List (String × Node)

/-- Replaces what a key holds, in its place. -/
def replace (k : String) (n : Node) : Entries → Entries
  | [] => []
  | (l, m) :: es => if l = k then (l, n) :: es else (l, m) :: replace k n es

/-- Changes the table at the end of a header path; of a list of tables the last one counts. -/
def within (f : Entries → Option Entries) : List String → Entries → Option Entries
  | [], es => f es
  | k :: ks, es =>
    match es.lookup k with
    | none => do
      let sub ← within f ks []
      some (es ++ [(k, .table .implied sub)])
    | some (.value _) => none
    | some (.table origin sub) => do
      let sub ← within f ks sub
      some (replace k (.table origin sub) es)
    | some (.tables items) =>
      match items.reverse with
      | [] => none
      | last :: before => do
        let last ← within f ks last
        some (replace k (.tables (last :: before).reverse) es)

/-- Adds a value under a dotted key; only tables that dotted keys made may be added to. -/
def put (v : Document) (inDotted : Bool) : List String → Entries → Option Entries
  | [], _ => none
  | [k], es =>
    match es.lookup k with
    | none => if inDotted then some (es ++ [(k, .value v)]) else none
    | some _ => none
  | k :: ks, es =>
    match es.lookup k with
    | none => do
      let sub ← put v true ks []
      some (es ++ [(k, .table .dotted sub)])
    | some (.value _) => none
    | some (.table .header _) => none
    | some (.table origin sub) => do
      let sub ← put v (origin = .dotted) ks sub
      some (replace k (.table origin sub) es)
    | some (.tables items) =>
      match items.reverse with
      | [] => none
      | last :: before => do
        let last ← put v false ks last
        some (replace k (.tables (last :: before).reverse) es)

/-- Opens a table: a new one, or one that was only on the way to another. -/
def openTable (k : String) (es : Entries) : Option Entries :=
  match es.lookup k with
  | none => some (es ++ [(k, .table .header [])])
  | some (.table .implied sub) => some (es.filter (·.1 ≠ k) ++ [(k, .table .header sub)])
  | some _ => none

/-- Opens one more table of a list. -/
def openItem (k : String) (es : Entries) : Option Entries :=
  match es.lookup k with
  | none => some (es ++ [(k, .tables [[]])])
  | some (.tables items) => some (replace k (.tables (items ++ [[]])) es)
  | some _ => none

mutual

/-- The finished value. -/
def Node.document : Node → Document
  | .value d => d
  | .table _ es => .table (entryDocuments es)
  | .tables items => .list (itemDocuments items)

def entryDocuments : List (String × Node) → List (String × Document)
  | [] => []
  | (k, n) :: es => (k, n.document) :: entryDocuments es

def itemDocuments : List (List (String × Node)) → List Document
  | [] => []
  | es :: items => .table (entryDocuments es) :: itemDocuments items

end

end Toml

end BusBench

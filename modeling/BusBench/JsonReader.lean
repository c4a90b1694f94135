import BusBench.Document
import BusBench.HexText

namespace BusBench

namespace Json

/-- Skips the blanks of the format. -/
def skip : List Char → List Char
  | c :: cs => if c = ' ' ∨ c = '\n' ∨ c = '\r' ∨ c = '\t' then skip cs else c :: cs
  | [] => []

/-- Puts an entry where its key belongs in ascending order, in the place of an entry of that key. -/
def putEntry (k : String) (d : Document) : List (String × Document) → List (String × Document)
  | [] => [(k, d)]
  | (l, e) :: es =>
    if k < l then (k, d) :: (l, e) :: es
    else if k = l then (k, d) :: es
    else (l, e) :: putEntry k d es

/-- Four hexadecimal digits. -/
def unit? : List Char → Option (Nat × List Char)
  | a :: b :: c :: d :: cs => do
    let ds ← [a, b, c, d].mapM hexDigit?
    some (ds.foldl (16 * · + ·) 0, cs)
  | _ => none

/-- The character of a numbered escape, whose second half may have to follow. -/
def numbered? (cs : List Char) : Option (Char × List Char) := do
  let (high, cs) ← unit? cs
  if 0xd800 ≤ high ∧ high < 0xdc00 then
    match cs with
    | '\x5c' :: 'u' :: cs =>
      let (low, cs) ← unit? cs
      if 0xdc00 ≤ low ∧ low < 0xe000 then
        some (Char.ofNat (0x10000 + (high - 0xd800) * 0x400 + (low - 0xdc00)), cs)
      else none
    | _ => none
  else if 0xdc00 ≤ high ∧ high < 0xe000 then none
  else some (Char.ofNat high, cs)

/-- The character of an escape. -/
def escape? : List Char → Option (Char × List Char)
  | '\x22' :: cs => some ('\x22', cs)
  | '\x5c' :: cs => some ('\x5c', cs)
  | '/' :: cs => some ('/', cs)
  | 'b' :: cs => some ('\x08', cs)
  | 'f' :: cs => some ('\x0c', cs)
  | 'n' :: cs => some ('\n', cs)
  | 'r' :: cs => some ('\r', cs)
  | 't' :: cs => some ('\t', cs)
  | 'u' :: cs => numbered? cs
  | _ => none

/-- The rest of a string after its opening quote. -/
def stringRest : Nat → List Char → List Char → Option (String × List Char)
  | 0, _, _ => none
  | fuel + 1, acc, cs =>
    match cs with
    | [] => none
    | '\x22' :: cs => some (String.ofList acc.reverse, cs)
    | '\x5c' :: cs => do
      let (c, cs) ← escape? cs
      stringRest fuel (c :: acc) cs
    | c :: cs => if c.toNat < 0x20 then none else stringRest fuel (c :: acc) cs

/-- Digits in front of a text. -/
def digits (cs : List Char) : List Char × List Char := cs.span Char.isDigit

/-- The value of decimal digits. -/
def value (ds : List Char) : Nat := ds.foldl (fun n c => 10 * n + (c.toNat - '0'.toNat)) 0

/-- The part of a number behind its point. -/
def fraction? : List Char → Option (List Char × List Char)
  | '.' :: cs =>
    let (ds, cs) := digits cs
    if ds.isEmpty then none else some (ds, cs)
  | cs => some ([], cs)

/-- The power of ten of a number. -/
def exponent? : List Char → Option (Option Int × List Char)
  | c :: cs =>
    if c = 'e' ∨ c = 'E' then
      let (negative, cs) :=
        match cs with
        | '-' :: cs => (true, cs)
        | '+' :: cs => (false, cs)
        | cs => (false, cs)
      let (ds, cs) := digits cs
      if ds.isEmpty then none
      else some (some (if negative then -(value ds : Int) else value ds), cs)
    else some (none, c :: cs)
  | [] => some (none, [])

/-- Goes on with a number as long as its digits fit 64 bits, and gives the digits that are left. -/
def leading (n : Nat) : List Char → Nat × List Char
  | [] => (n, [])
  | d :: ds =>
    let m := 10 * n + (d.toNat - '0'.toNat)
    if m < UInt64.size then leading m ds else (n, d :: ds)

/-- The number nearest to `n`, times `10 ^ e` in steps of `10 ^ 308` at most with a rounding at
each, unless it is too great. -/
def scaled? (negative : Bool) (n : Nat) (e : Int) : Option Binary64 :=
  let x := Binary64.ofDecimal negative n 0
  if n = 0 then some x
  else if e < -616 then some (.ofDecimal negative 0 0)
  else if e < -308 then some ((x.overTen 308).overTen (-308 - e).toNat)
  else if e < 0 then some (x.overTen (-e).toNat)
  else if 308 < e then none
  else
    let y := x.timesTen e.toNat
    if y = .infinite negative then none else some y

/-- An integer of 64 bits, of either kind, stays one; other numbers are binary. -/
def ofNumber? (negative : Bool) (whole part : List Char) (e : Option Int) : Option Document :=
  let (n, left) := leading 0 whole
  let fits := left.isEmpty ∧ (¬ negative ∨ 0 < n ∧ n ≤ 0x8000000000000000)
  if part.isEmpty ∧ e.isNone ∧ fits then
    some (.int (if negative then -n else n))
  else
    let (n, unread) := leading n part
    let shift : Int := left.length + unread.length - part.length
    (scaled? negative n (e.getD 0 + shift)).map .float

/-- A number. -/
def number? (cs : List Char) : Option (Document × List Char) := do
  let (negative, cs) :=
    match cs with
    | '-' :: cs => (true, cs)
    | cs => (false, cs)
  let (whole, cs) := digits cs
  if whole.isEmpty ∨ (whole.length > 1 ∧ whole.head? = some '0') then none
  else
    let (part, cs) ← fraction? cs
    let (e, cs) ← exponent? cs
    let d ← ofNumber? negative whole part e
    some (d, cs)

mutual

/-- A document in front of a text. -/
def document : Nat → List Char → Option (Document × List Char)
  | 0, _ => none
  | fuel + 1, cs =>
    match skip cs with
    | 'n' :: 'u' :: 'l' :: 'l' :: cs => some (.null, cs)
    | 't' :: 'r' :: 'u' :: 'e' :: cs => some (.bool true, cs)
    | 'f' :: 'a' :: 'l' :: 's' :: 'e' :: cs => some (.bool false, cs)
    | '\x22' :: cs => (stringRest (cs.length + 1) [] cs).map fun (s, cs) => (.text s, cs)
    | '[' :: cs =>
      match skip cs with
      | ']' :: cs => some (.list [], cs)
      | cs => (items fuel cs).map fun (ds, cs) => (.list ds, cs)
    | '\x7b' :: cs =>
      match skip cs with
      | '\x7d' :: cs => some (.table [], cs)
      | cs => (entries fuel [] cs).map fun (es, cs) => (.table es, cs)
    | cs => number? cs

/-- The items of a list up to its bracket. -/
def items : Nat → List Char → Option (List Document × List Char)
  | 0, _ => none
  | fuel + 1, cs => do
    let (d, cs) ← document fuel cs
    match skip cs with
    | ',' :: cs => (items fuel cs).map fun (ds, cs) => (d :: ds, cs)
    | ']' :: cs => some ([d], cs)
    | _ => none

/-- The entries of a table up to its brace. -/
def entries : Nat → List (String × Document) → List Char →
    Option (List (String × Document) × List Char)
  | 0, _, _ => none
  | fuel + 1, es, cs =>
    match skip cs with
    | '\x22' :: cs => do
      let (k, cs) ← stringRest (cs.length + 1) [] cs
      match skip cs with
      | ':' :: cs => do
        let (d, cs) ← document fuel cs
        match skip cs with
        | ',' :: cs => entries fuel (putEntry k d es) cs
        | '\x7d' :: cs => some (putEntry k d es, cs)
        | _ => none
      | _ => none
    | _ => none

end

/-- Reads a whole text as one document, with the keys of each table in ascending order. -/
def parse (text : String) : Option Document := do
  let cs := text.toList
  let (d, rest) ← document (cs.length + 1) cs
  if (skip rest).isEmpty then some d else none

end Json

end BusBench

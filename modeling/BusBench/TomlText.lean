import BusBench.HexText

namespace BusBench

namespace Toml

/-- Skips blanks and tabs. -/
def skipBlanks : List Char → List Char
  | ' ' :: cs => skipBlanks cs
  | '\t' :: cs => skipBlanks cs
  | cs => cs

/-- The rest after an end of line. -/
def newline? : List Char → Option (List Char)
  | '\n' :: cs => some cs
  | '\r' :: '\n' :: cs => some cs
  | _ => none

/-- A character that may stand for itself in a line. -/
def isPlain (c : Char) : Bool := c = '\t' || (0x20 ≤ c.toNat && c.toNat != 0x7f)

/-- Skips a comment, which ends before the end of its line. -/
def skipComment : List Char → List Char
  | '#' :: cs => cs.dropWhile isPlain
  | cs => cs

/-- A character given by its number in so many digits. -/
def numbered? (n : Nat) (cs : List Char) : Option (Char × List Char) := do
  let ds ← (cs.take n).mapM hexDigit?
  let code := ds.foldl (16 * · + ·) 0
  if ds.length = n ∧ (code < 0xd800 ∨ (0xe000 ≤ code ∧ code < 0x110000)) then
    some (Char.ofNat code, cs.drop n)
  else none

/-- The character of an escape. -/
def escape? : List Char → Option (Char × List Char)
  | 'b' :: cs => some ('\x08', cs)
  | 't' :: cs => some ('\t', cs)
  | 'n' :: cs => some ('\n', cs)
  | 'f' :: cs => some ('\x0c', cs)
  | 'r' :: cs => some ('\r', cs)
  | '\x22' :: cs => some ('\x22', cs)
  | '\x5c' :: cs => some ('\x5c', cs)
  | 'u' :: cs => numbered? 4 cs
  | 'U' :: cs => numbered? 8 cs
  | _ => none

/-- Skips blanks and ends of lines. -/
def skipSpace : Nat → List Char → List Char
  | 0, cs => cs
  | fuel + 1, cs =>
    match skipBlanks cs with
    | '\n' :: cs => skipSpace fuel cs
    | '\r' :: '\n' :: cs => skipSpace fuel cs
    | cs => cs

/-- The rest of a string of one line, where `quote` ends it and escapes may be known. -/
def lineRest (quote : Char) (escapes : Bool) : Nat → List Char → List Char →
    Option (String × List Char)
  | 0, _, _ => none
  | fuel + 1, acc, cs =>
    match cs with
    | [] => none
    | c :: cs =>
      if c = quote then some (String.ofList acc.reverse, cs)
      else if c = '\x5c' ∧ escapes then do
        let (c, cs) ← escape? cs
        lineRest quote escapes fuel (c :: acc) cs
      else if isPlain c then lineRest quote escapes fuel (c :: acc) cs
      else none

/-- The rest of a string of many lines: three quotes end it, and two more may stand before them. -/
def blockRest (quote : Char) (escapes : Bool) : Nat → List Char → List Char →
    Option (String × List Char)
  | 0, _, _ => none
  | fuel + 1, acc, cs =>
    match cs with
    | [] => none
    | '\n' :: cs => blockRest quote escapes fuel ('\n' :: acc) cs
    | '\r' :: '\n' :: cs => blockRest quote escapes fuel ('\n' :: acc) cs
    | c :: cs =>
      if c = quote then
        let more := (cs.takeWhile (· = quote)).length
        if 2 ≤ more then
          let extra := min (more - 2) 2
          some (String.ofList (List.replicate extra quote ++ acc).reverse, cs.drop (extra + 2))
        else blockRest quote escapes fuel (c :: acc) cs
      else if c = '\x5c' ∧ escapes then
        match newline? (skipBlanks cs) with
        | some cs => blockRest quote escapes fuel acc (skipSpace cs.length cs)
        | none => do
          let (c, cs) ← escape? cs
          blockRest quote escapes fuel (c :: acc) cs
      else if isPlain c then blockRest quote escapes fuel (c :: acc) cs
      else none

/-- A quoted text of one line. -/
def lineText? : List Char → Option (String × List Char)
  | '\x22' :: cs => lineRest '\x22' true (cs.length + 1) [] cs
  | '\x27' :: cs => lineRest '\x27' false (cs.length + 1) [] cs
  | _ => none

/-- The first end of line in a block is not part of it. -/
def dropNewline (cs : List Char) : List Char := (newline? cs).getD cs

/-- A quoted text of one line or of many. -/
def text? : List Char → Option (String × List Char)
  | '\x22' :: '\x22' :: '\x22' :: cs =>
    blockRest '\x22' true (cs.length + 1) [] (dropNewline cs)
  | '\x27' :: '\x27' :: '\x27' :: cs =>
    blockRest '\x27' false (cs.length + 1) [] (dropNewline cs)
  | cs => lineText? cs

/-- A character of a key without quotes. -/
def isBare (c : Char) : Bool := c.isAlphanum || c = '_' || c = '-'

/-- One part of a key. -/
def keyPart? (cs : List Char) : Option (String × List Char) :=
  match cs with
  | '\x22' :: _ => lineText? cs
  | '\x27' :: _ => lineText? cs
  | _ =>
    let (name, rest) := cs.span isBare
    if name.isEmpty then none else some (String.ofList name, rest)

/-- A key: parts with points between them, and blanks anywhere. -/
def key? : Nat → List Char → Option (List String × List Char)
  | 0, _ => none
  | fuel + 1, cs => do
    let (k, cs) ← keyPart? (skipBlanks cs)
    match skipBlanks cs with
    | '.' :: cs =>
      let (ks, cs) ← key? fuel cs
      some (k :: ks, cs)
    | cs => some ([k], cs)

end Toml

end BusBench

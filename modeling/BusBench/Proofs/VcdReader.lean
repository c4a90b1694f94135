import Mathlib.Logic.Function.Basic
import Std.Data.String.ToNat

namespace BusBench

namespace Vcd

/-- A wire that a dump declares. -/
structure Wire where
  width : Nat
  code : List Char
  name : String
  deriving DecidableEq, Repr

/-- What stands under one tick marker: names of wires with their new values. -/
structure Block where
  tick : Nat
  changes : List (String × Nat)
  deriving DecidableEq, Repr

/-- What a dump says. -/
structure Dump where
  wires : List Wire
  blocks : List Block
  deriving DecidableEq, Repr

/-- A line of the body of a dump. -/
inductive Line where
  | marker (tick : Nat)
  | keyword
  | change (name : String) (value : Nat)
  deriving DecidableEq, Repr

/-- The lines of a text that are ended. -/
def endedLines (text : List Char) : List (List Char) := (text.splitOn '\n').dropLast

/-- The wire that a line of the header declares, if it declares one. -/
def readWire (line : List Char) : Option Wire :=
  match line.splitOn ' ' with
  | [key, kind, width, code, name, stop] =>
    if key = "$var".toList ∧ kind = "wire".toList ∧ stop = "$end".toList then
      (String.ofList width).toNat?.map fun n => ⟨n, code, String.ofList name⟩
    else none
  | _ => none

/-- A value with a binary digit for each bit of the wire that a code names. -/
def readValue (wires : List Wire) (digits code : List Char) : Option Line :=
  match wires.find? (·.code = code) with
  | none => none
  | some w =>
    if digits.length == w.width && digits.all (fun c => c == '0' || c == '1') then
      some (.change w.name (Nat.ofDigitChars 2 digits 0))
    else none

/-- A line that starts with `b` has a blank between the digits and the code; elsewhere a single
digit stands right before the code. -/
def readLine (wires : List Wire) : List Char → Option Line
  | '#' :: digits => (String.ofList digits).toNat?.map .marker
  | '$' :: word => if word = "dumpvars".toList ∨ word = "end".toList then some .keyword else none
  | 'b' :: rest =>
    match rest.splitOn ' ' with
    | [digits, code] => readValue wires digits code
    | _ => none
  | digit :: code => readValue wires [digit] code
  | [] => none

/-- The changes that stand before the first marker, and what stands under the markers. -/
def readBody (wires : List Wire) : List (List Char) → Option (List (String × Nat) × List Block)
  | [] => some ([], [])
  | line :: rest =>
    match readLine wires line, readBody wires rest with
    | some (.marker tick), some (changes, blocks) => some ([], ⟨tick, changes⟩ :: blocks)
    | some .keyword, some body => some body
    | some (.change name value), some (changes, blocks) => some ((name, value) :: changes, blocks)
    | _, _ => none

/-- The line that ends the definitions. -/
def lastDefinition : List Char := "$enddefinitions $end".toList

/-- Reads a dump line by line: the wires up to the end of the definitions, then the body, in which
every change stands under a marker. -/
def read (text : String) : Option Dump :=
  let wires := ((endedLines text.toList).takeWhile (· != lastDefinition)).filterMap readWire
  match (endedLines text.toList).dropWhile (· != lastDefinition) with
  | [] => none
  | _ :: body =>
    match readBody wires body with
    | some ([], blocks) => some ⟨wires, blocks⟩
    | _ => none

/-- The levels of the wires after what stands under a marker. -/
def Block.replay (levels : String → Option Nat) (b : Block) : String → Option Nat :=
  b.changes.foldl (fun levels (name, value) => Function.update levels name (some value)) levels

/-- The levels of the wires at a tick: what stands under markers up to that tick, one after the
other. -/
def Dump.levels (d : Dump) (tick : Nat) : String → Option Nat :=
  (d.blocks.takeWhile (·.tick ≤ tick)).foldl Block.replay fun _ => none

/-- Lines, each of them ended. -/
def unlines (ls : List (List Char)) : List Char := ls.flatMap (· ++ ['\n'])

theorem endedLines_unlines {ls : List (List Char)} (h : ∀ l ∈ ls, '\n' ∉ l) :
    endedLines (unlines ls) = ls := by
  induction ls with
  | nil => rfl
  | cons l ls ih =>
    have hrest := ih fun l' hl' => h l' (List.mem_cons_of_mem l hl')
    have hsplit : (unlines (l :: ls)).splitOn '\n' = l :: (unlines ls).splitOn '\n' := by
      rw [unlines, List.flatMap_cons, List.append_assoc]
      exact List.splitOn_append_cons_self_of_not_mem (h l List.mem_cons_self) _
    rw [endedLines, hsplit, List.dropLast_cons_of_ne_nil (List.splitOn_ne_nil '\n' _)]
    exact congrArg (l :: ·) hrest

theorem read_unlines {text : String} {header body : List (List Char)} {blocks : List Block}
    (htext : text.toList = unlines (header ++ lastDefinition :: body))
    (hheader : ∀ l ∈ header, '\n' ∉ l ∧ l ≠ lastDefinition) (hbody : ∀ l ∈ body, '\n' ∉ l)
    (hblocks : readBody (header.filterMap readWire) body = some ([], blocks)) :
    read text = some ⟨header.filterMap readWire, blocks⟩ := by
  have hlines : endedLines text.toList = header ++ lastDefinition :: body := by
    rw [htext]
    apply endedLines_unlines
    intro l hl
    rcases List.mem_append.mp hl with hl | hl
    · exact (hheader l hl).1
    · rcases List.mem_cons.mp hl with rfl | hl
      · decide
      · exact hbody l hl
  have hopen : ∀ l ∈ header, (l != lastDefinition) = true := by
    intro l hl
    exact bne_iff_ne.mpr (hheader l hl).2
  unfold read
  rw [hlines, List.takeWhile_append_of_pos hopen, List.dropWhile_append_of_pos hopen]
  simp [hblocks]

theorem readBody_marker {wires : List Wire} {body : List (List Char)}
    {changes : List (String × Nat)} {blocks : List Block} (tick : Nat)
    (h : readBody wires body = some (changes, blocks)) :
    readBody wires (('#' :: (toString tick).toList) :: body) =
      some ([], ⟨tick, changes⟩ :: blocks) := by
  have hline : readLine wires ('#' :: (toString tick).toList) = some (.marker tick) := by
    rw [readLine, String.ofList_toList]
    exact congrArg (Option.map Line.marker) (Nat.toNat?_repr tick)
  rw [readBody, hline, h]

theorem readBody_keyword {wires : List Wire} {body : List (List Char)} (line : List Char)
    (hline : readLine wires line = some .keyword) :
    readBody wires (line :: body) = readBody wires body := by
  rw [readBody, hline]
  cases readBody wires body <;> rfl

theorem readBody_change {wires : List Wire} {body : List (List Char)} {line : List Char}
    {name : String} {value : Nat} {changes : List (String × Nat)} {blocks : List Block}
    (hline : readLine wires line = some (.change name value))
    (h : readBody wires body = some (changes, blocks)) :
    readBody wires (line :: body) = some ((name, value) :: changes, blocks) := by
  rw [readBody, hline, h]

end Vcd

end BusBench

import BusBench.Medium
import BusBench.Sink

namespace BusBench

namespace Vcd

/-- The digits of an identifier code, the lowest first, in the 94 printable characters from
`!` on. -/
def codeChars (n : Nat) : List Char :=
  let c := Char.ofNat (33 + n % 94)
  if n < 94 then [c] else c :: codeChars (n / 94 - 1)
termination_by n

/-- The identifier code of a pin of the layout. -/
def code (n : Nat) : String := String.ofList (codeChars n)

/-- The pins with their identifier codes. -/
def coded : List (Pin × String) := Pin.all.zipIdx.map fun (pin, n) => (pin, code n)

/-- A number in binary, padded to a width. -/
def binary (width n : Nat) : String :=
  let digits := Nat.toDigits 2 n
  String.ofList (List.replicate (width - digits.length) '0' ++ digits)

/-- The pieces that declare a pin. -/
def declaration (pin : Pin) (code : String) : List String :=
  ["$var wire ", toString pin.width, " ", code, " ", pin.name, " $end\n"]

/-- The pieces of the header. -/
def header (timescale : String) : List String :=
  ["$date\n", "  Simulation date\n", "$end\n", "$version\n", "  cyclebench\n", "$end\n",
   "$timescale\n", "  ", timescale, "\n", "$end\n", "$scope module dut $end\n"] ++
  coded.flatMap (fun (pin, code) => declaration pin code) ++
  ["$upscope $end\n", "$enddefinitions $end\n"]

/-- The pieces that give a pin a value. -/
def change (p : Pins) (pin : Pin) (code : String) : List String :=
  if pin.width = 1 then [if p.value pin &&& 1 = 1 then "1" else "0", code, "\n"]
  else ["b" ++ binary pin.width (p.value pin).toNat, " ", code, "\n"]

/-- The pieces that give every pin of a list its value. -/
def changes (p : Pins) (pins : List (Pin × String)) : List String :=
  pins.flatMap fun (pin, code) => change p pin code

/-- The pieces that mark a tick. -/
def mark (tick : Nat) : List String := ["#", toString tick, "\n"]

/-- The pieces of a sample: all values at first, then those that differ from the sample before. -/
def sample (tick : Nat) (p : Pins) : Option Pins → List String
  | none => mark tick ++ ["$dumpvars\n"] ++ changes p coded ++ ["$end\n"]
  | some last =>
    if last.values = p.values then []
    else mark tick ++ changes p (coded.filter fun (pin, _) => last.value pin != p.value pin)

end Vcd

/-- A value change dump in the making. -/
structure Vcd where
  medium : Medium := {}
  timescale : String := "1ns"
  headed : Bool := false
  last : Option Pins := none
  deriving DecidableEq, Repr

namespace Vcd

/-- Writes the header unless it stands there in full. -/
def start (v : Vcd) : Except Fault Unit × Vcd :=
  if v.headed then (.ok (), v)
  else
    match v.medium.putAll (header v.timescale) with
    | (.ok (), medium) => (.ok (), { v with medium, headed := true })
    | (.error e, medium) => (.error e, { v with medium })

/-- Records the pins at a tick. -/
def record (tick : Nat) (p : Pins) (v : Vcd) : Except Fault Unit × Vcd :=
  match v.start with
  | (.error e, v) => (.error e, v)
  | (.ok (), v) =>
    match v.medium.putAll (sample tick p v.last) with
    | (.ok (), medium) => (.ok (), { v with medium, last := some p })
    | (.error e, medium) => (.error e, { v with medium })

/-- A dump as a trace of a run. -/
def sink : TraceSink Vcd := ⟨record, start⟩

end Vcd

end BusBench

import BusBench.Arguments
import BusBench.HexText

namespace BusBench

/-- What `run` overrides of the configuration. -/
structure RunArgs where
  image : Option String := none
  offset : Option Word := none
  pass : Option Word := none
  fail : Option Word := none
  timeout : Option Nat := none
  halfPeriod : Option Nat := none
  waves : Option String := none
  noWaves : Bool := false
  coverage : Option String := none
  json : Bool := false
  deriving DecidableEq, Repr

/-- Which tests `regress` runs. -/
structure RegressArgs where
  name : Option String := none
  filter : Option String := none
  noWaves : Bool := false
  deriving DecidableEq, Repr

inductive Command where
  | run (args : RunArgs)
  | regress (args : RegressArgs)
  | check
  deriving DecidableEq, Repr

/-- A whole command line. -/
structure Invocation where
  quiet : Bool := false
  verbose : Bool := false
  config : Option String := none
  command : Command
  deriving DecidableEq, Repr

namespace CommandLine

/-- A decimal number of 64 bits; a plus sign may stand before it. -/
def number? (text : String) : Option Nat :=
  let cs :=
    match text.toList with
    | '+' :: cs => cs
    | cs => cs
  if cs.isEmpty ∨ !cs.all Char.isDigit then none
  else
    let n := Nat.ofDigitChars 10 cs 0
    if n < UInt64.size then some n else none

/-- Any text will do. -/
def textValue : SwitchKind := .valued fun _ => none

def hexValue : SwitchKind :=
  .valued fun s => if (Word.parse s).toOption.isSome then none else some .badValue

def numberValue : SwitchKind :=
  .valued fun s => if (number? s).isSome then none else some .badValue

/-- One of the report formats. -/
def formatValue : SwitchKind :=
  .valued fun s => if s = "text" ∨ s = "json" then none else some .invalidValue

/-- The switches that every level knows. -/
def globals : List Switch :=
  [⟨"quiet", some 'q', .flag⟩, ⟨"verbose", some 'v', .flag⟩, ⟨"config", none, textValue⟩,
   ⟨"help", some 'h', .answer .help⟩]

def top : Grammar where
  switches := globals ++ [⟨"version", some 'V', .answer .version⟩]
  commands := ["run", "regress", "check", "help"]

def run : Grammar where
  switches :=
    globals ++
      [⟨"image", none, textValue⟩, ⟨"offset", none, hexValue⟩, ⟨"pass", none, hexValue⟩,
       ⟨"fail", none, hexValue⟩, ⟨"timeout", none, numberValue⟩,
       ⟨"half-period", none, numberValue⟩, ⟨"waves", none, textValue⟩, ⟨"no-waves", none, .flag⟩,
       ⟨"coverage", none, textValue⟩, ⟨"format", some 'f', formatValue⟩]

def regress : Grammar where
  switches := globals ++ [⟨"filter", none, textValue⟩, ⟨"no-waves", none, .flag⟩]
  positional := some "name"

def check : Grammar where
  switches := globals

/-- Arguments that do not go together. -/
def rivals : List (String × String) :=
  [("quiet", "verbose"), ("waves", "no-waves"), ("name", "filter")]

/-- Settles what is pending and refuses rivals. -/
def close (g : Gathered) : Except Usage Gathered := do
  let g ← g.settle
  if rivals.any fun (a, b) => g.has a && g.has b then throw .conflict
  return g

/-- Reads the arguments of a command to their end. -/
def level (gr : Grammar) (args : List String) : Except Usage Gathered := do
  let (g, _) ← gr.gather false {} args
  close g

def runArgs (g : Gathered) : RunArgs where
  image := g.get? "image"
  offset := g.get? "offset" >>= fun s => (Word.parse s).toOption
  pass := g.get? "pass" >>= fun s => (Word.parse s).toOption
  fail := g.get? "fail" >>= fun s => (Word.parse s).toOption
  timeout := g.get? "timeout" >>= number?
  halfPeriod := g.get? "half-period" >>= number?
  waves := g.get? "waves"
  noWaves := g.has "no-waves"
  coverage := g.get? "coverage"
  json := g.get? "format" == some "json"

def regressArgs (g : Gathered) : RegressArgs where
  name := g.get? "name"
  filter := g.get? "filter"
  noWaves := g.has "no-waves"

/-- Asks for help on a command, or on all of them. -/
def help : List String → Usage
  | [] => .help
  | [name] => if name ∈ top.commands then .help else .invalidCommand
  | _ => .invalidCommand

/-- Reads the arguments of the command that was named. -/
def command (name : String) (args : List String) : Except Usage (Gathered × Command) :=
  if name = "run" then (level run args).map fun g => (g, .run (runArgs g))
  else if name = "regress" then (level regress args).map fun g => (g, .regress (regressArgs g))
  else if name = "check" then (level check args).map fun g => (g, .check)
  else .error (help args)

/-- Reads a command line; a switch that every level knows counts wherever it stands, the
last value first. -/
def parse (args : List String) : Except Usage Invocation := do
  let (outer, rest) ← top.gather false {} args
  match rest with
  | none =>
    let outer ← outer.settle
    throw (if outer.values.isEmpty then .noArguments else .missingCommand)
  | some (name, args) =>
    let (inner, command) ← command name args
    let outer ← close outer
    return {
      quiet := outer.has "quiet" || inner.has "quiet"
      verbose := outer.has "verbose" || inner.has "verbose"
      config := inner.get? "config" <|> outer.get? "config"
      command }

end CommandLine

end BusBench

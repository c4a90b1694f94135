namespace BusBench

/-- Why arguments do not make a command; help and version are answers rather than faults. -/
inductive Usage where
  | conflict
  | badValue
  | invalidValue
  | tooManyValues
  | unknownArgument
  | invalidCommand
  | missingCommand
  | noArguments
  | help
  | version
  deriving DecidableEq, Repr

/-- The exit status that goes with it. -/
def Usage.exitCode : Usage → Nat
  | help => 0
  | version => 0
  | _ => 2

/-- What a switch does when it is given. -/
inductive SwitchKind where
  | flag
  | valued (check : String → Option Usage)
  | answer (usage : Usage)

/-- A named argument. -/
structure Switch where
  name : String
  letter : Option Char := none
  kind : SwitchKind

/-- The arguments that one level of a command line knows. -/
structure Grammar where
  switches : List Switch
  positional : Option String := none
  commands : List String := []

/-- Arguments read so far. A value is only looked at when the next argument is. -/
structure Gathered where
  values : List (String × String) := []
  pending : Option (Switch × Option String) := none

namespace Gathered

def has (g : Gathered) (name : String) : Bool := (g.values.lookup name).isSome

/-- The value of an argument, if it was given. -/
def get? (g : Gathered) (name : String) : Option String := g.values.lookup name

/-- Notes an argument, which may be given once. -/
def add (g : Gathered) (name value : String) : Except Usage Gathered :=
  if g.has name then .error .conflict
  else .ok { g with values := g.values ++ [(name, value)] }

/-- Notes the value of a switch. -/
def give (g : Gathered) (s : Switch) (value : String) : Except Usage Gathered :=
  match g.add s.name value, s.kind with
  | .ok g, .valued check =>
    match check value with
    | some usage => .error usage
    | none => .ok g
  | result, _ => result

/-- Deals with the switch whose value was waited for. -/
def settle (g : Gathered) : Except Usage Gathered :=
  match g.pending with
  | none => .ok g
  | some (_, none) => .error .invalidValue
  | some (s, some value) => { g with pending := none }.give s value

/-- Whether the next argument may be a value. -/
def waits (g : Gathered) : Bool := g.pending.any fun (_, value) => value.isNone

/-- Takes a switch, with its value if that was given in the same argument. -/
def take (g : Gathered) (s : Switch) (value : Option String) : Except Usage Gathered :=
  match s.kind, value with
  | .flag, none => g.settle >>= (·.add s.name "")
  | .answer usage, none => g.settle >>= fun _ => .error usage
  | .valued _, none => g.settle.map ({ · with pending := some (s, none) })
  | .valued _, some value => g.settle >>= (·.give s value)
  | _, some _ => .error .tooManyValues

end Gathered

namespace Grammar

/-- Takes the letters of an argument such as `-qf`; what follows a valued one is its value. -/
def takeLetters (gr : Grammar) (g : Gathered) : List Char → Except Usage Gathered
  | [] => .ok g
  | c :: cs =>
    match gr.switches.find? (·.letter == some c) with
    | none => .error .unknownArgument
    | some s =>
      match s.kind, cs with
      | .valued _, [] => g.take s none
      | .valued _, '=' :: cs => g.take s (some (String.ofList cs))
      | .valued _, cs => g.take s (some (String.ofList cs))
      | _, cs => g.take s none >>= fun g => gr.takeLetters g cs

/-- Takes an argument such as `--name` or `--name=value`. -/
def takeName (gr : Grammar) (g : Gathered) (cs : List Char) : Except Usage Gathered :=
  let (name, value) := cs.span (· != '=')
  match gr.switches.find? (·.name == String.ofList name) with
  | none => .error .unknownArgument
  | some s => g.take s (if value.isEmpty then none else some (String.ofList (value.drop 1)))

/-- Takes an argument that is no switch and no value. -/
def takePlain (gr : Grammar) (g : Gathered) (trailing : Bool) (arg : String) :
    Except Usage Gathered :=
  match gr.positional with
  | some name =>
    if g.has name then .error .unknownArgument else g.settle >>= (·.add name arg)
  | none =>
    if gr.commands.isEmpty ∨ (trailing ∧ arg ∈ gr.commands) then .error .unknownArgument
    else .error .invalidCommand

/-- Reads arguments up to a command name, which is returned with what follows it. -/
def gather (gr : Grammar) (trailing : Bool) (g : Gathered) :
    List String → Except Usage (Gathered × Option (String × List String))
  | [] => .ok (g, none)
  | arg :: args =>
    if trailing then gr.takePlain g true arg >>= fun g => gr.gather true g args
    else if !g.waits ∧ arg ∈ gr.commands then .ok (g, some (arg, args))
    else
      match arg.toList with
      | ['-', '-'] => gr.gather true g args
      | '-' :: '-' :: cs => gr.takeName g cs >>= fun g => gr.gather false g args
      | '-' :: c :: cs => gr.takeLetters g (c :: cs) >>= fun g => gr.gather false g args
      | _ =>
        match g.pending with
        | some (s, none) => gr.gather false { g with pending := some (s, some arg) } args
        | _ => gr.takePlain g false arg >>= fun g => gr.gather false g args

end Grammar

end BusBench

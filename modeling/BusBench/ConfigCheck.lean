import BusBench.Blank
import BusBench.Config
import BusBench.Fault
import BusBench.Reading

namespace BusBench

/-- What is wrong with a value. -/
inductive ConfigFlaw where
  | zero
  | aboveTop (lo hi : Word)
  | unaligned (addr : Word)
  | splitsWord (addr : Word)
  | blank
  | extraLanes (strobe : UInt8)
  deriving DecidableEq, Repr

def ConfigFlaw.message : ConfigFlaw → String
  | .zero => "must be non-zero"
  | .aboveTop lo hi => lo.hex ++ " is above memory.hi " ++ hi.hex
  | .unaligned addr => addr.hex ++ " is not word aligned"
  | .splitsWord addr => addr.hex ++ " does not end a word"
  | .blank => "must not be empty"
  | .extraLanes strobe => "0x" ++ hexText strobe.toNat ++ " has more than four lanes"

/-- Why a configuration is refused. -/
inductive ConfigError where
  | unreadable (path : Path) (fault : Fault)
  | notToml
  | layout (mistake : Mistake)
  | missingSentinel (key : String)
  | sentinelClash (context : String) (addr : Word)
  | invalid (key : String) (flaw : ConfigFlaw)

namespace ConfigError

def message : ConfigError → String
  | unreadable path fault => "cannot read " ++ path ++ ": " ++ fault.message
  | notToml => "malformed configuration: not a TOML document"
  | layout mistake => "malformed configuration: " ++ mistake.message Format.toml.floats
  | missingSentinel key => key ++ " is not set"
  | sentinelClash context addr => context ++ "pass and fail sentinels are both " ++ addr.hex
  | invalid key flaw => key ++ ": " ++ flaw.message

/-- The dotted key at fault, if there is one. -/
def key? : ConfigError → Option String
  | missingSentinel key => some key
  | invalid key _ => some key
  | _ => none

end ConfigError

/-- A condition with the error that stands for its failure. -/
structure Constraint where
  holds : Bool
  error : ConfigError

/-- The first condition that fails decides. -/
def firstFailure (cs : List Constraint) : Except ConfigError Unit :=
  match cs.find? fun c => !c.holds with
  | some c => .error c.error
  | none => .ok ()

namespace Config

/-- A key of the entry at a place of a list. -/
def itemKey (list : String) (n : Nat) (rest : String) : String :=
  list ++ "[" ++ toString n ++ "]" ++ rest

/-- Sentinels that are both known must differ. -/
def clash (context : String) (pass fail : Option Word) : List Constraint :=
  match pass, fail with
  | some p, some f => [⟨p != f, .sentinelClash context p⟩]
  | _, _ => []

/-- The strobes of a script name four lanes at most. -/
def strobes (key : String) (script : List BusOp) : List Constraint :=
  script.zipIdx.flatMap fun (op, n) =>
    match op with
    | .write _ _ strobe => [⟨strobe ≤ 0xf, .invalid (itemKey key n ".strobe") (.extraLanes strobe)⟩]
    | _ => []

/-- What must hold of the entry at a place of the test list. -/
def testConstraints (run : RunSection) (n : Nat) (t : TestEntry) : List Constraint :=
  clash (itemKey "test" n ": ") (t.passAddr <|> run.passAddr) (t.failAddr <|> run.failAddr) ++
  (match t.offset with
    | some offset => [⟨offset.aligned, .invalid (itemKey "test" n ".offset") (.unaligned offset)⟩]
    | none => []) ++
  (match t.timeout with
    | some timeout => [⟨timeout != 0, .invalid (itemKey "test" n ".timeout_ticks") .zero⟩]
    | none => []) ++
  (match t.script with
    | some script => strobes (itemKey "test" n ".script") script
    | none => [])

/-- What must hold of a configuration, in the order in which failures are blamed. -/
def constraints (c : Config) : List Constraint :=
  (if c.tests.isEmpty then
    [⟨c.run.passAddr.isSome, .missingSentinel "run.pass_addr"⟩,
     ⟨c.run.failAddr.isSome, .missingSentinel "run.fail_addr"⟩]
   else []) ++
  clash "" c.run.passAddr c.run.failAddr ++
  [⟨c.run.timeout != 0, .invalid "run.timeout_ticks" .zero⟩,
   ⟨c.run.halfPeriod != 0, .invalid "run.half_period" .zero⟩,
   ⟨c.memory.lo ≤ c.memory.hi, .invalid "memory.lo" (.aboveTop c.memory.lo c.memory.hi)⟩,
   ⟨c.memory.lo.aligned, .invalid "memory.lo" (.unaligned c.memory.lo)⟩,
   ⟨c.memory.hi &&& 3 == 3, .invalid "memory.hi" (.splitsWord c.memory.hi)⟩,
   ⟨c.memory.offset.aligned, .invalid "memory.offset" (.unaligned c.memory.offset)⟩,
   ⟨!c.trace.enabled || !(trim c.trace.timescale.toList).isEmpty,
     .invalid "trace.timescale" .blank⟩] ++
  strobes "script" c.script ++
  c.tests.zipIdx.flatMap fun (t, n) => testConstraints c.run n t

/-- Accepts a configuration whose constraints all hold. -/
def check (c : Config) : Except ConfigError Unit := firstFailure c.constraints

/-- The configuration with its relative paths put behind a base. -/
def anchor (base : Path) (c : Config) : Config :=
  { c with
    memory.image := c.memory.image.map base.join
    trace.path := base.join c.trace.path
    coverage.path := c.coverage.path.map base.join
    tests := c.tests.map fun t =>
      { t with image := base.join t.image, disassembly := t.disassembly.map base.join } }

end Config

end BusBench

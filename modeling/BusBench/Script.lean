import BusBench.Word

namespace BusBench

/-- One step of a bus script. -/
inductive BusOp where
  | read (addr : Word) (expect : Option Word)
  | write (addr data : Word) (strobe : UInt8)
  | idle (cycles : UInt32)
  | finish
  deriving DecidableEq, Repr

/-- One script entry of a configuration. -/
inductive ScriptOp where
  | read (addr : Word) (expect : Option Word)
  | write (addr data : Word) (strobe : UInt8)
  | idle (cycles : UInt32)
  | finish
  deriving DecidableEq, Repr

/-- The step that an entry asks for. -/
def ScriptOp.busOp : ScriptOp → BusOp
  | read addr expect => .read addr expect
  | write addr data strobe => .write addr data strobe
  | idle cycles => .idle cycles
  | finish => .finish

/-- The steps that the entries of a configuration ask for. -/
def busOps (script : List ScriptOp) : List BusOp := script.map ScriptOp.busOp

end BusBench

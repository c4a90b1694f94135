import BusBench.Fields
import BusBench.Script

namespace BusBench

/-- The records of a script by their tags, over what is made of them and two readers of words:
for those that must be there and for the expected one. -/
def opVariants {α : Type} (name : String) (read : Word → Option Word → α)
    (write : Word → Word → UInt8 → α) (idle : UInt32 → α) (finish : α) (word : Reader Word)
    (expected : Reader (Option Word)) : List (Variant α) :=
  [⟨"read", "struct variant " ++ name ++ "::Read",
      read <$> .needed "addr" word <*> .orElse "expect" expected none⟩,
   ⟨"write", "struct variant " ++ name ++ "::Write",
      write <$> .needed "addr" word <*> .needed "data" word <*> .orElse "strobe" Reader.byte 0xf⟩,
   ⟨"idle", "struct variant " ++ name ++ "::Idle", idle <$> .needed "cycles" Reader.word⟩,
   ⟨"finish", "unit variant " ++ name ++ "::Finish", pure finish⟩]

namespace ScriptOp

def variants : List (Variant ScriptOp) :=
  opVariants "ScriptOp" read write idle finish Reader.spelledWord
    (Reader.present Reader.spelledWord)

/-- Reads a script entry of a configuration, where addresses and data may be spelled in
hexadecimal digits. -/
def reader : Reader ScriptOp := Variant.reader variants "op" "internally tagged enum ScriptOp"

/-- Reads the script of a configuration as the steps it asks for. -/
def script : Reader (List BusOp) := fun d => (Reader.list reader d).map busOps

end ScriptOp

namespace BusOp

def variants : List (Variant BusOp) :=
  opVariants "BusOp" read write idle finish Reader.word (Reader.nullable Reader.word)

/-- Reads an op whose words are numbers. -/
def reader : Reader BusOp := Variant.reader variants "op" "internally tagged enum BusOp"

/-- An op with all its fields. -/
def document : BusOp → Document
  | read addr expect =>
    .table [("op", .text "read"), ("addr", .word addr), ("expect", .ofOption .word expect)]
  | write addr data strobe =>
    .table
      [("op", .text "write"), ("addr", .word addr), ("data", .word data),
       ("strobe", .nat strobe.toNat)]
  | idle cycles => .table [("op", .text "idle"), ("cycles", .word cycles)]
  | finish => .table [("op", .text "finish")]

end BusOp

end BusBench

import BusBench.Config
import BusBench.ScriptReader

namespace BusBench

def RunSection.fields : Fields RunSection :=
  RunSection.mk <$> .orElse "pass_addr" (Reader.present Reader.spelledWord) none
    <*> .orElse "fail_addr" (Reader.present Reader.spelledWord) none
    <*> .orElse "timeout_ticks" (Reader.unsigned 64) 10000
    <*> .orElse "half_period" (Reader.unsigned 64) 10
    <*> .orElse "reset_ticks" (Reader.unsigned 64) 40

def MemorySection.fields : Fields MemorySection :=
  MemorySection.mk <$> .orElse "lo" Reader.spelledWord 0
    <*> .orElse "hi" Reader.spelledWord 0xffffffff
    <*> .orElse "default" Reader.spelledWord 0
    <*> .orElse "image" (Reader.nullable Reader.path) none
    <*> .orElse "offset" Reader.spelledWord 0

def TraceSection.fields : Fields TraceSection :=
  TraceSection.mk <$> .orElse "enabled" Reader.bool false
    <*> .orElse "path" Reader.path "waves.vcd"
    <*> .orElse "compress" Reader.bool false
    <*> .orElse "timescale" Reader.text "1ns"

def CoverageSection.fields : Fields CoverageSection :=
  CoverageSection.mk <$> .orElse "path" (Reader.nullable Reader.path) none

def TestEntry.fields : Fields TestEntry :=
  TestEntry.mk <$> .orElse "name" (Reader.nullable Reader.text) none
    <*> .needed "image" Reader.path
    <*> .orElse "disassembly" (Reader.nullable Reader.path) none
    <*> .orElse "pass_addr" (Reader.present Reader.spelledWord) none
    <*> .orElse "fail_addr" (Reader.present Reader.spelledWord) none
    <*> .orElse "offset" (Reader.present Reader.spelledWord) none
    <*> .orElse "timeout_ticks" (Reader.nullable (Reader.unsigned 64)) none
    <*> .orElse "script" (Reader.nullable ScriptOp.script) none

namespace Config

/-- The tables of a configuration, none of which has to be there. -/
def fields (format : Format) : Fields Config :=
  Config.mk <$> .orElse "run" (RunSection.fields.reader format "struct RunSection" true) {}
    <*> .orElse "memory" (MemorySection.fields.reader format "struct MemorySection" true) {}
    <*> .orElse "trace" (TraceSection.fields.reader format "struct TraceSection" true) {}
    <*> .orElse "coverage" (CoverageSection.fields.reader format "struct CoverageSection" true) {}
    <*> .orElse "script" ScriptOp.script []
    <*> .orElse "test"
      (Reader.list (TestEntry.fields.reader format "struct TestEntry" true)) []

/-- Reads a configuration; a key that its table does not have is refused. -/
def reader (format : Format) : Reader Config :=
  (fields format).reader format "struct RunConfig" true

end Config

end BusBench

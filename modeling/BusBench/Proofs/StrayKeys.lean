import BusBench.Proofs.Constraints
import BusBench.Proofs.Layouts

namespace BusBench

/-- Keys that hold plain values. -/
def plainKeys (keys : List String) : List (String × Layout) := keys.map (·, .plain)

/-- The keys of an op by its tag. -/
def BusOp.layout : Layout :=
  .tagged "op" [("read", ["addr", "expect"]), ("write", ["addr", "data", "strobe"]),
    ("idle", ["cycles"]), ("finish", [])]

def RunSection.declared : List (String × Layout) :=
  plainKeys ["pass_addr", "fail_addr", "timeout_ticks", "half_period", "reset_ticks"]

def MemorySection.declared : List (String × Layout) :=
  plainKeys ["lo", "hi", "default", "image", "offset"]

def TraceSection.declared : List (String × Layout) :=
  plainKeys ["enabled", "path", "compress", "timescale"]

def CoverageSection.declared : List (String × Layout) := plainKeys ["path"]

def TestEntry.declared : List (String × Layout) :=
  plainKeys ["name", "image", "disassembly", "pass_addr", "fail_addr", "offset", "timeout_ticks"] ++
    [("script", .list BusOp.layout)]

def Config.declared : List (String × Layout) :=
  [("run", .record RunSection.declared), ("memory", .record MemorySection.declared),
    ("trace", .record TraceSection.declared), ("coverage", .record CoverageSection.declared),
    ("script", .list BusOp.layout), ("test", .list (.record TestEntry.declared))]

/-- The tables of a configuration with the keys they declare. -/
def Config.layout : Layout := .record declared

section

open Fields Reader

theorem ScriptOp.reader_heeds : ScriptOp.reader.Heeds BusOp.layout := by
  apply Variant.heeds
  refine .cons ⟨rfl, plainKeys ["addr", "expect"], ?read, rfl⟩ <|
    .cons ⟨rfl, plainKeys ["addr", "data", "strobe"], ?write, rfl⟩ <|
    .cons ⟨rfl, plainKeys ["cycles"], ?idle, rfl⟩ <| .cons ⟨rfl, [], ?finish, rfl⟩ .nil
  case read => exact (laid_pure _).needed (heeds_plain _) |>.orElse (heeds_plain _)
  case write =>
    exact (laid_pure _).needed (heeds_plain _) |>.needed (heeds_plain _) |>.orElse (heeds_plain _)
  case idle => exact (laid_pure _).needed (heeds_plain _)
  case finish => exact laid_pure _

theorem ScriptOp.script_heeds : ScriptOp.script.Heeds (.list BusOp.layout) :=
  ScriptOp.reader_heeds.list.map busOps

theorem RunSection.laid : RunSection.fields.Laid RunSection.declared :=
  (laid_pure _).orElse (heeds_plain _) |>.orElse (heeds_plain _) |>.orElse (heeds_plain _)
    |>.orElse (heeds_plain _) |>.orElse (heeds_plain _)

theorem MemorySection.laid : MemorySection.fields.Laid MemorySection.declared :=
  (laid_pure _).orElse (heeds_plain _) |>.orElse (heeds_plain _) |>.orElse (heeds_plain _)
    |>.orElse (heeds_plain _) |>.orElse (heeds_plain _)

theorem TraceSection.laid : TraceSection.fields.Laid TraceSection.declared :=
  (laid_pure _).orElse (heeds_plain _) |>.orElse (heeds_plain _) |>.orElse (heeds_plain _)
    |>.orElse (heeds_plain _)

theorem CoverageSection.laid : CoverageSection.fields.Laid CoverageSection.declared :=
  (laid_pure _).orElse (heeds_plain _)

theorem TestEntry.laid : TestEntry.fields.Laid TestEntry.declared :=
  (laid_pure _).orElse (heeds_plain _) |>.needed (heeds_plain _) |>.orElse (heeds_plain _)
    |>.orElse (heeds_plain _) |>.orElse (heeds_plain _) |>.orElse (heeds_plain _)
    |>.orElse (heeds_plain _) |>.orElse ScriptOp.script_heeds.nullable

namespace Config

variable {format : Format} {k : String} {v d d' : Document} {table : Table} {c : Config}

theorem laid : (fields format).Laid declared :=
  (laid_pure _).orElse (RunSection.laid.heeds (by decide))
    |>.orElse (MemorySection.laid.heeds (by decide)) |>.orElse (TraceSection.laid.heeds (by decide))
    |>.orElse (CoverageSection.laid.heeds (by decide)) |>.orElse ScriptOp.script_heeds
    |>.orElse (TestEntry.laid.heeds (by decide)).list

theorem reader_heeds : (reader format).Heeds layout := laid.heeds (by decide)

/-- What is loaded with a stray key in a table of a configuration. -/
def outcome (k : String) (c : Config) : Table → Except ConfigError Config
  | .record keys => .error (.layout (.unknownKey k keys))
  | .variant _ => .ok c

/-- A key that its table does not declare is refused everywhere but in an op of a script: there it
makes no difference at all. -/
theorem stray_key_by_table (hload : ofDocument format d = .ok c)
    (hstray : Stray k v layout table d d') :
    ofDocument format d' = outcome k c table ∧
    ∀ text, format = .toml → Toml.parse text = some d' → ofToml text = outcome k c table := by
  obtain ⟨hread, hcheck⟩ := ofDocument_eq_ok_iff.mp hload
  have hread' : reader format d' = table.answer k c := reader_heeds hread hstray
  have hdocument : ofDocument format d' = outcome k c table := by
    cases table with
    | record keys => simp only [ofDocument, hread', Table.answer, outcome]
    | variant keys => exact ofDocument_eq_ok_iff.mpr ⟨hread', hcheck⟩
  refine ⟨hdocument, fun text hformat hparse => ?_⟩
  subst hformat
  simpa only [ofToml, hparse] using hdocument

/-- A configuration with a read that expects nothing, and room for more in its tables. -/
def quietRead (run op : List (String × Document)) : Document :=
  .table
    [("run", .table ([("pass_addr", .int 0x10), ("fail_addr", .int 0x20)] ++ run)),
      ("script", .list [.table ([("op", .text "read"), ("addr", .int 0)] ++ op)])]

def quietConfig : Config where
  run := { passAddr := some 0x10, failAddr := some 0x20 }
  script := [.read 0 none]

theorem stray_in_run : Stray "timeout" (.int 5) layout
    (.record ["pass_addr", "fail_addr", "timeout_ticks", "half_period", "reset_ticks"])
    (quietRead [] []) (quietRead [("timeout", .int 5)] []) :=
  .entry [] _ List.mem_cons_self (.record [_, _] [] (by decide))

theorem stray_in_read : Stray "expct" (.int 1) layout (.variant ["addr", "expect"])
    (quietRead [] []) (quietRead [] [("expct", .int 1)]) := by
  have hop : Stray "expct" (.int 1) BusOp.layout (.variant ["addr", "expect"])
      (.table ([("op", .text "read"), ("addr", .int 0)] ++ []))
      (.table [("op", .text "read"), ("addr", .int 0), ("expct", .int 1)]) :=
    .variant [_, _] [] rfl rfl (by decide) (by decide)
  exact .entry [_] [] (by simp [declared]) (.item [] [] hop)

theorem stray_key_by_table_of_quiet_read :
    ofDocument .json (quietRead [] []) = .ok quietConfig ∧
    ofDocument .json (quietRead [("timeout", .int 5)] []) = .error (.layout (.unknownKey "timeout"
      ["pass_addr", "fail_addr", "timeout_ticks", "half_period", "reset_ticks"])) ∧
    ofDocument .json (quietRead [] [("expct", .int 1)]) = .ok quietConfig := by
  have hload : ofDocument .json (quietRead [] []) = .ok quietConfig := rfl
  exact ⟨hload, (stray_key_by_table hload stray_in_run).1,
    (stray_key_by_table hload stray_in_read).1⟩

/-- A misspelt expectation goes unnoticed: the read is left without one. -/
theorem misspelt_expect_loads :
    Stray "expct" (.int 1) layout (.variant ["addr", "expect"]) (quietRead [] [])
      (quietRead [] [("expct", .int 1)]) ∧
    ofDocument .toml (quietRead [] []) = .ok quietConfig ∧
    ofDocument .toml (quietRead [] [("expct", .int 1)]) = .ok quietConfig ∧
    (ofToml ("[run]\npass_addr = 0x10\nfail_addr = 0x20\n" ++
      "[[script]]\nop = \"read\"\naddr = 0\nexpct = 1\n")).toOption = some quietConfig :=
  ⟨stray_in_read, rfl, rfl, by decide +kernel⟩

end Config

end

end BusBench

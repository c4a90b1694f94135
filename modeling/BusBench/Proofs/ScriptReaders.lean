import BusBench.Proofs.Coverings
import BusBench.Proofs.JsonTexts
import BusBench.ScriptReader

namespace BusBench

namespace Reader

theorem unsigned_nat {bits n : Nat} (h : n < Nat.pow 2 bits) :
    unsigned bits (.nat n) = .ok n := by
  have hn : 0 ≤ (n : Int) ∧ (n : Int) < Nat.pow 2 bits :=
    ⟨Int.natCast_nonneg n, Int.ofNat_lt.mpr h⟩
  show unsigned bits (.int n) = _
  rw [unsigned, if_pos hn, Int.toNat_natCast]

theorem word_word (w : Word) : word (.word w) = .ok w := by
  rw [word, Document.word, unsigned_nat w.toNat_lt]
  simp [Except.map]

theorem byte_nat (b : UInt8) : byte (.nat b.toNat) = .ok b := by
  rw [byte, unsigned_nat b.toNat_lt]
  simp [Except.map]

/-- A number of 32 bits is a word, spelled as a number. -/
theorem word_covered : Covered Eq word spelledWord := by
  intro d w hd hread
  refine ⟨w, ?_, rfl⟩
  cases d with
  | int n =>
    by_cases hn : 0 ≤ n ∧ n < Nat.pow 2 32
    · simp only [word, unsigned, if_pos hn, Except.map] at hread
      have hsize : 0 ≤ n ∧ n < UInt32.size := hn
      simp only [spelledWord, if_pos hsize, hread]
    · simp only [word, unsigned, if_neg hn, Except.map] at hread
      cases hread
  | _ => cases hread

end Reader

namespace BusOp

theorem exact_nat {n : Nat} (h : n < UInt64.size) : Json.Exact (.nat n) :=
  .int ⟨by omega, Int.ofNat_lt.mpr h⟩

theorem exact_document (op : BusOp) : Json.Exact op.document := by
  have hword (w : Word) : Json.Exact (.word w) :=
    exact_nat (Nat.lt_trans w.toNat_lt (by decide))
  cases op with
  | read addr expect =>
    have hexpect : Json.Exact (.ofOption .word expect) := by
      cases expect with
      | none => exact .null
      | some w => exact hword w
    exact .table (by simp [Json.Exact.text, hword, hexpect])
  | write addr data strobe =>
    have hstrobe : Json.Exact (.nat strobe.toNat) :=
      exact_nat (Nat.lt_trans strobe.toNat_lt (by decide))
    exact .table (by simp [Json.Exact.text, hword, hstrobe])
  | idle cycles => exact .table (by simp [Json.Exact.text, hword])
  | finish => exact .table (by simp [Json.Exact.text])

theorem ordered_document (op : BusOp) : Json.ordered op.document =
    match op with
    | read addr expect =>
      .table [("addr", .word addr), ("expect", .ofOption .word expect), ("op", .text "read")]
    | write addr data strobe =>
      .table [("addr", .word addr), ("data", .word data), ("op", .text "write"),
        ("strobe", .nat strobe.toNat)]
    | idle cycles => .table [("cycles", .word cycles), ("op", .text "idle")]
    | finish => .table [("op", .text "finish")] := by
  cases op with
  | read addr expect =>
    cases expect <;> simp only [document, Json.ordered, Json.orderedEntries, Json.putEntry,
      Document.word, Document.nat, Document.ofOption, String.reduceLT, String.reduceEq, if_true,
      if_false]
  | _ =>
    simp only [document, Json.ordered, Json.orderedEntries, Json.putEntry, Document.word,
      Document.nat, String.reduceLT, String.reduceEq, if_true, if_false]

/-- The order of its keys does not matter to what an op is read as. -/
theorem reader_ordered (op : BusOp) : reader (Json.ordered op.document) = .ok op := by
  rw [ordered_document]
  cases op with
  | read addr expect =>
    have hexpect := Reader.nullable_ofOption Reader.word_word nofun expect
    refine (Variant.reader_table rfl rfl).trans (Fields.Made.ofTable ?_ (by simp))
    exact ((Fields.made_pure _).needed rfl (Reader.word_word addr)).orElse rfl hexpect
  | write addr data strobe =>
    refine (Variant.reader_table rfl rfl).trans (Fields.Made.ofTable ?_ (by simp))
    exact (((Fields.made_pure _).needed rfl (Reader.word_word addr)).needed rfl
      (Reader.word_word data)).orElse rfl (Reader.byte_nat strobe)
  | idle cycles =>
    refine (Variant.reader_table rfl rfl).trans (Fields.Made.ofTable ?_ (by simp))
    exact (Fields.made_pure _).needed rfl (Reader.word_word cycles)
  | finish => rfl

/-- A script is read back from its text. -/
theorem parse_script (ops : List BusOp) :
    ∃ d, Json.parse (Json.compact (.list (ops.map document))) = some d ∧
      Reader.list reader d = .ok ops := by
  have hexact : Json.Exact (.list (ops.map document)) := by
    refine .list fun d hd => ?_
    obtain ⟨op, -, rfl⟩ := List.mem_map.mp hd
    exact exact_document op
  refine ⟨_, Json.parse_compact hexact, ?_⟩
  rw [Json.ordered, Json.orderedItems_eq_map, List.map_map, Reader.list_eq_ok_iff,
    List.forall₂_map_left_iff, List.forall₂_same]
  exact fun op _ => reader_ordered op

open Fields Reader in
theorem variants_covered :
    List.Forall₂ (Variant.Covered fun op entry => entry.busOp = op) variants
      ScriptOp.variants := by
  refine .cons ⟨rfl, ?read⟩ <| .cons ⟨rfl, ?write⟩ <| .cons ⟨rfl, ?idle⟩ <|
    .cons ⟨rfl, ?finish⟩ .nil
  case read =>
    exact (covered_pure fun _ _ => rfl).needed word_covered |>.orElse word_covered.present
  case write =>
    exact (covered_pure fun _ _ _ => rfl).needed word_covered |>.needed word_covered
      |>.orElse (covered_self _)
  case idle => exact (covered_pure fun _ => rfl).needed (covered_self _)
  case finish => exact covered_pure rfl

/-- A script without nulls is read alike by a configuration. -/
theorem script_of_nullFree {d : Document} {ops : List BusOp} (h : d.NullFree)
    (hread : Reader.list reader d = .ok ops) :
    ∃ script, Reader.list ScriptOp.reader d = .ok script ∧ busOps script = ops := by
  obtain ⟨script, hscript, hops⟩ := (Variant.reader_covered variants_covered).list h hread
  refine ⟨script, hscript, ?_⟩
  rw [busOps, ← List.forall₂_eq_eq_eq, List.forall₂_map_left_iff]
  exact hops.flip

/-- Scripts survive being written and read back, and a script without nulls that is read as steps
is one that a configuration takes for the same steps. -/
theorem scripts_survive_and_readers_agree :
    (∀ ops : List BusOp, ∃ d, Json.parse (Json.compact (.list (ops.map document))) = some d ∧
      Reader.list reader d = .ok ops) ∧
    ∀ (d : Document) (ops : List BusOp), d.NullFree → Reader.list reader d = .ok ops →
      ∃ script, Reader.list ScriptOp.reader d = .ok script ∧ busOps script = ops :=
  ⟨parse_script, fun _ _ => script_of_nullFree⟩

/-- A script with defaults left out, a key that no step has, and steps given as plain lists. -/
def looseScript : Document :=
  .list
    [.table [("note", .list [.bool true]), ("op", .text "read"), ("addr", .int 0x10)],
      .table [("data", .int 0xffffffff), ("addr", .int 4), ("op", .text "write")],
      .list [.text "write", .int 8, .int 1, .int 3], .list [.text "idle", .int 7],
      .table [("op", .text "finish")]]

theorem looseScript_taken : ∃ script, Reader.list ScriptOp.reader looseScript = .ok script ∧
    busOps script = [.read 0x10 none, .write 4 0xffffffff 0xf, .write 8 1 3, .idle 7, .finish] := by
  have hnullFree : looseScript.NullFree := by simp [looseScript]
  exact scripts_survive_and_readers_agree.2 looseScript _ hnullFree rfl

/-- A step that expects nothing is written with a null, which a configuration does not take. -/
example : Reader.list ScriptOp.reader (.list [(read 0x10 none).document]) =
    .error (.wrongKind .null "a 32-bit unsigned integer or a hexadecimal string") := rfl

end BusOp

end BusBench

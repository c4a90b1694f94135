import BusBench.Proofs.Lines
import BusBench.Proofs.SpelledWords
import BusBench.RegressCommand
import Mathlib.Data.List.Sort
import Std.Data.String.ToNat

namespace BusBench

/-- What a line of the table of a regression tells. -/
structure TableLine where
  result : String
  pass : Option Word
  fail : Option Word
  ticks : Option Nat
  test : String
  deriving DecidableEq, Repr

namespace TableLine

/-- The text before the first bar, without the blanks around it, and what follows the bar. -/
def column (cs : List Char) : Option (List Char × List Char) :=
  match cs.dropWhile (· != '|') with
  | [] => none
  | _ :: rest => some (trim (cs.takeWhile (· != '|')), rest)

/-- A dash stands for nothing. -/
def cell {α : Type} (read : String → Option α) (cs : List Char) : Option (Option α) :=
  if cs = ['-'] then some none else (read (String.ofList cs)).map some

def address (cs : List Char) : Option (Option Word) := cell (fun s => (Word.parse s).toOption) cs

/-- Reads a line with four columns that bars end; a blank and the test follow. -/
def read (line : String) : Option TableLine := do
  let (result, rest) ← column line.toList
  let (pass, rest) ← column rest
  let (fail, rest) ← column rest
  let (ticks, rest) ← column rest
  let pass ← address pass
  let fail ← address fail
  let ticks ← cell String.toNat? ticks
  match rest with
  | ' ' :: test => some ⟨String.ofList result, pass, fail, ticks, String.ofList test⟩
  | _ => none

/-- A text that a column can hold. -/
def Solid (cs : List Char) : Prop := ∀ c ∈ cs, isBlank c = false ∧ c ≠ '|'

instance (cs : List Char) : Decidable (Solid cs) :=
  decidable_of_iff (cs.all fun c => !isBlank c && c != '|') <| by simp [Solid]

/-- A text with spaces at its ends. -/
def Padded (cs text : List Char) : Prop :=
  ∃ before after, text = List.replicate before ' ' ++ cs ++ List.replicate after ' '

theorem column_of_padded {cs text : List Char} (h : Solid cs) (hpad : Padded cs text)
    (rest : List Char) : column (text ++ '|' :: rest) = some (cs, rest) := by
  obtain ⟨before, after, rfl⟩ := hpad
  have hspace : ∀ n, ∀ c ∈ List.replicate n ' ', isBlank c = true ∧ c ≠ '|' := by
    intro n c hc
    obtain rfl := List.eq_of_mem_replicate hc
    decide
  have htrim : trim (List.replicate before ' ' ++ cs ++ List.replicate after ' ') = cs :=
    trim_between (fun c hc => (hspace before c hc).1) (fun c hc => (hspace after c hc).1)
      (fun c hc => (h c (List.mem_of_mem_head? hc)).1)
      fun c hc => (h c (List.mem_of_getLast? hc)).1
  have hbar : ∀ c ∈ List.replicate before ' ' ++ cs ++ List.replicate after ' ',
      (c != '|') = true := by
    intro c hc
    rw [bne_iff_ne]
    rcases List.mem_append.mp hc with hc | hc
    · rcases List.mem_append.mp hc with hc | hc
      · exact (hspace before c hc).2
      · exact (h c hc).2
    · exact (hspace after c hc).2
  rw [column, List.dropWhile_append_of_pos hbar, List.takeWhile_append_of_pos hbar]
  simp only [bne_self_eq_false, Bool.false_eq_true, not_false_eq_true, List.dropWhile_cons_of_neg,
    List.takeWhile_cons_of_neg, List.append_nil, htrim]

theorem padded_padEnd (before width : Nat) (s : String) : Padded s.toList
    (List.replicate before ' ' ++ (padEnd width s).toList ++ [' ']) := by
  refine ⟨before, width - s.length + 1, ?_⟩
  simp [padEnd, List.replicate_succ']

theorem padded_padStart (width : Nat) (s : String) : Padded s.toList
    (' ' :: (padStart width s).toList ++ [' ']) := by
  refine ⟨width - s.length + 1, 1, ?_⟩
  simp [padStart, List.replicate_succ]

theorem solid_name (status : TestStatus) : Solid status.name.toList := by
  cases status <;> decide

theorem solid_dash : Solid "-".toList := by decide

theorem solid_hex (w : Word) : Solid w.hex.toList := by
  rw [Word.toList_hex]
  have hbar := HexDigit.not_mem_chars (by decide : isHexDigit '|' = false)
    (HexDigit.ofNumber 8 w.toNat)
  intro c hc
  rcases List.mem_cons.mp hc with rfl | hc
  · decide
  rcases List.mem_cons.mp hc with rfl | hc
  · decide
  · refine ⟨?_, fun heq => hbar (heq ▸ hc)⟩
    obtain ⟨d, -, rfl⟩ := List.mem_map.mp hc
    exact d.isBlank_char

theorem solid_nat (n : Nat) : Solid (toString n).toList := by
  intro c hc
  have hdigit : c.isDigit = true := isDigit_of_mem_toString hc
  have hrange : 48 ≤ c.toNat ∧ c.toNat ≤ 57 := by
    simp only [Char.isDigit, Bool.and_eq_true, decide_eq_true_eq] at hdigit
    exact ⟨UInt32.le_iff_toNat_le.mp hdigit.1, UInt32.le_iff_toNat_le.mp hdigit.2⟩
  refine ⟨?_, ?_⟩
  · rw [← Bool.not_eq_true]
    intro hblank
    simp only [isBlank, Bool.or_eq_true, Bool.and_eq_true, decide_eq_true_eq, beq_iff_eq] at hblank
    omega
  · rintro rfl
    exact absurd hrange.2 (by decide)

theorem cell_dash {α : Type} (read : String → Option α) : cell read "-".toList = some none := rfl

theorem cell_of_read {α : Type} {read : String → Option α} {s : String} {a : α} (h : s ≠ "-")
    (hread : read s = some a) : cell read s.toList = some (some a) := by
  have hdash : s.toList ≠ ['-'] := fun heq => h (String.toList_inj.mp heq)
  rw [cell, if_neg hdash, String.ofList_toList, hread]
  rfl

theorem address_hex (w : Word) : address w.hex.toList = some (some w) := by
  have hread : Word.parse w.hex = .ok w := by
    rw [Word.chars_hexSpelling]
    exact Word.parse_chars_iff.mpr w.number_hexSpelling
  refine cell_of_read ?_ (by rw [hread]; rfl)
  intro heq
  have htext := congrArg String.toList heq
  rw [Word.toList_hex] at htext
  cases htext

theorem ticks_nat (n : Nat) : cell String.toNat? (toString n).toList = some (some n) := by
  refine cell_of_read ?_ (Nat.toNat?_repr n)
  intro heq
  have hdash : '-' ∈ (toString n).toList := by
    rw [heq]
    decide
  exact absurd (isDigit_of_mem_toString hdash) (by decide)

end TableLine

namespace TestResult

/-- What the line of a row is to tell. -/
def told (r : TestResult) : TableLine where
  result := r.status.name
  pass := r.sentinels.map (·.pass)
  fail := r.sentinels.map (·.fail)
  ticks := r.ticks
  test := r.name ++ r.detail.elim "" (": " ++ ·)

variable (r : TestResult)

theorem toList_row : r.row.toList =
    List.replicate 0 ' ' ++ (padEnd 6 r.status.name).toList ++ [' '] ++ '|' ::
      (List.replicate 1 ' ' ++ (padEnd 10 (r.sentinels.elim "-" (·.pass.hex))).toList ++ [' '] ++
        '|' :: (List.replicate 1 ' ' ++ (padEnd 10 (r.sentinels.elim "-" (·.fail.hex))).toList ++
          [' '] ++ '|' :: (' ' :: (padStart 8 (r.ticks.elim "-" toString)).toList ++ [' '] ++
            '|' :: ' ' :: r.told.test.toList))) := by
  simp [row, told]

theorem address_elim (address : Sentinels → Word) :
    TableLine.Solid (r.sentinels.elim "-" fun s => (address s).hex).toList ∧
      TableLine.address (r.sentinels.elim "-" fun s => (address s).hex).toList =
        some (r.sentinels.map address) := by
  cases r.sentinels with
  | none => exact ⟨TableLine.solid_dash, TableLine.cell_dash _⟩
  | some s => exact ⟨TableLine.solid_hex _, TableLine.address_hex _⟩

theorem ticks_elim : TableLine.Solid (r.ticks.elim "-" toString).toList ∧
    TableLine.cell String.toNat? (r.ticks.elim "-" toString).toList = some r.ticks := by
  cases r.ticks with
  | none => exact ⟨TableLine.solid_dash, TableLine.cell_dash _⟩
  | some n => exact ⟨TableLine.solid_nat n, TableLine.ticks_nat n⟩

/-- The line of a row is read back, whatever the name and the detail are. -/
theorem read_row : TableLine.read r.row = some r.told := by
  obtain ⟨hpass, hreadPass⟩ := r.address_elim (·.pass)
  obtain ⟨hfail, hreadFail⟩ := r.address_elim (·.fail)
  obtain ⟨hticks, hreadTicks⟩ := r.ticks_elim
  have hresult := TableLine.solid_name r.status
  simp only [TableLine.read, toList_row,
    TableLine.column_of_padded hresult (TableLine.padded_padEnd ..),
    TableLine.column_of_padded hpass (TableLine.padded_padEnd ..),
    TableLine.column_of_padded hfail (TableLine.padded_padEnd ..),
    TableLine.column_of_padded hticks (TableLine.padded_padStart ..),
    hreadPass, hreadFail, hreadTicks, Option.bind_eq_bind, Option.bind_some, String.ofList_toList]
  rfl

end TestResult

/-- What a test is called: its own name, else the stem of its image, else its image. -/
inductive TestEntry.Called (t : TestEntry) : String → Prop
  | own {name : String} : t.name = some name → Called t name
  | stem {name : String} : t.name = none → t.image.fileStem? = some name → Called t name
  | image : t.name = none → t.image.fileStem? = none → Called t t.image

theorem TestEntry.called_iff {t : TestEntry} {name : String} :
    t.Called name ↔ t.displayName = name := by
  unfold displayName
  constructor
  · rintro (hown | ⟨hnone, hstem⟩ | ⟨hnone, hstem⟩)
    · rw [hown]
      rfl
    · rw [hnone, hstem]
      rfl
    · rw [hnone, hstem]
      rfl
  · cases hown : t.name with
    | some own =>
      rintro rfl
      exact .own hown
    | none =>
      cases hstem : t.image.fileStem? with
      | some stem =>
        rintro rfl
        exact .stem hown hstem
      | none =>
        rintro rfl
        exact .image hown hstem

namespace RegressArgs

/-- A test is asked for by its name, which counts alone if it is given, or by a part of its name;
without either all tests are. -/
inductive Asks (a : RegressArgs) (t : TestEntry) : Prop
  | name {name : String} : a.name = some name → t.Called name → Asks a t
  | part {part name : String} : a.name = none → a.filter = some part → t.Called name →
      part.toList <:+: name.toList → Asks a t
  | all : a.name = none → a.filter = none → Asks a t

/-- The tests that are asked for, each with its place in the file, in the order of the file. -/
structure Picked (a : RegressArgs) (tests : List TestEntry) (picked : List (TestEntry × Nat)) :
    Prop where
  ordered : picked.Pairwise fun x y => x.2 < y.2
  mem_iff : ∀ t index, (t, index) ∈ picked ↔ tests[index]? = some t ∧ a.Asks t

variable {a : RegressArgs} {t : TestEntry}

theorem selects_iff : a.selects t = true ↔ a.Asks t := by
  unfold selects
  constructor
  · split
    next name _ hname =>
      intro h
      exact .name hname (TestEntry.called_iff.mpr (beq_iff_eq.mp h))
    next part hname hfilter =>
      intro h
      exact .part hname hfilter (TestEntry.called_iff.mpr rfl) (occursIn_iff.mp h)
    next hname hfilter => exact fun _ => .all hname hfilter
  · rintro (⟨hname, hcalled⟩ | ⟨hname, hfilter, hcalled, hpart⟩ | ⟨hname, hfilter⟩)
    · rw [hname]
      exact beq_iff_eq.mpr (TestEntry.called_iff.mp hcalled)
    · rw [hname, hfilter, TestEntry.called_iff.mp hcalled]
      exact occursIn_iff.mpr hpart
    · rw [hname, hfilter]

theorem select_picked (a : RegressArgs) (tests : List TestEntry) :
    a.Picked tests (a.select tests) where
  ordered := by
    have hall : tests.zipIdx.Pairwise fun x y => x.2 < y.2 := by
      apply List.pairwise_map.mp
      change (tests.zipIdx.map Prod.snd).Pairwise (· < ·)
      rw [List.zipIdx_map_snd]
      exact List.pairwise_lt_range'
    exact hall.filter _
  mem_iff := by
    intro t index
    rw [select, List.mem_filter, List.mem_zipIdx_iff_getElem?]
    exact and_congr_right fun _ => selects_iff

/-- The places leave no choice. -/
theorem Picked.eq_select {tests : List TestEntry} {picked : List (TestEntry × Nat)}
    (h : a.Picked tests picked) : picked = a.select tests := by
  have hselect := select_picked a tests
  have : Std.Irrefl fun x y : TestEntry × Nat => x.2 < y.2 := ⟨fun x => Nat.lt_irrefl x.2⟩
  have : Std.Antisymm fun x y : TestEntry × Nat => x.2 < y.2 :=
    ⟨fun _ _ hxy hyx => absurd hxy (Nat.lt_asymm hyx)⟩
  refine h.ordered.eq_of_mem_iff hselect.ordered ?_
  rintro ⟨t, index⟩
  rw [h.mem_iff, hselect.mem_iff]

end RegressArgs

end BusBench

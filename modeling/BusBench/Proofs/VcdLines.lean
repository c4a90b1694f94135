import BusBench.Proofs.Lines
import BusBench.Proofs.VcdReader
import BusBench.Vcd
import Mathlib.Algebra.Group.Nat.Defs
import Mathlib.Data.List.Basic

namespace BusBench

theorem Medium.putAll_unlimited {m : Medium} (h : m.limit = none) (pieces : List String) :
    m.putAll pieces = (.ok (), { m with text := m.text ++ String.join pieces }) := by
  induction pieces generalizing m with
  | nil => simp [putAll]
  | cons piece pieces ih =>
    have hput : m.put piece = (.ok (), { m with text := m.text ++ piece }) := by
      simp [put, fits, h]
    have hrest := ih (m := { m with text := m.text ++ piece }) h
    rw [putAll, hput, String.join_cons, ← String.append_assoc]
    exact hrest

theorem Pin.width_pos (pin : Pin) : 0 < pin.width := by
  cases pin <;> decide

theorem Pins.value_lt (p : Pins) (pin : Pin) : (p.value pin).toNat < 2 ^ pin.width := by
  have hflag : ∀ b : Bool, b.toUInt32.toNat < 2 ^ 1 := by decide
  cases pin with
  | readAddr | readData | writeAddr | writeData => exact UInt32.toNat_lt _
  | writeStrobe =>
    rw [Pins.value, UInt32.toNat_and]
    exact Nat.and_lt_two_pow _ (by decide)
  | _ => exact hflag _

namespace Vcd

theorem code_of_lt {n : Nat} (h : n < 94) : code n = String.ofList [Char.ofNat (33 + n)] := by
  rw [code, codeChars, if_pos h, Nat.mod_eq_of_lt h]

theorem coded_eq : coded =
    [(.reset, "!"), (.clock, "\""), (.readAddrValid, "#"), (.readAddr, "$"),
     (.readAddrReady, "%"), (.readDataValid, "&"), (.readData, "'"), (.writeAddrValid, "("),
     (.writeAddr, ")"), (.writeAddrReady, "*"), (.writeDataValid, "+"), (.writeData, ","),
     (.writeStrobe, "-"), (.writeDataReady, "."), (.writeRespValid, "/")] := by
  have hcodes : coded =
      Pin.all.zipIdx.map fun x => (x.1, String.ofList [Char.ofNat (33 + x.2)]) := by
    apply List.map_congr_left
    rintro ⟨pin, n⟩ hx
    have hlt : n < 15 := List.snd_lt_of_mem_zipIdx hx
    exact congrArg (Prod.mk pin) (code_of_lt (show n < 94 by omega))
  rw [hcodes]
  rfl

/-- The wire that a pin is declared as. -/
def wire (x : Pin × String) : Wire := ⟨x.1.width, x.2.toList, x.1.name⟩

theorem wire_of_code :
    ∀ x ∈ coded, (coded.map wire).find? (·.code = x.2.toList) = some (wire x) := by
  rw [coded_eq]
  decide +kernel

theorem plain_of_mem_coded : ∀ x ∈ coded,
    ' ' ∉ x.2.toList ∧ '\n' ∉ x.2.toList ∧ ' ' ∉ x.1.name.toList ∧ '\n' ∉ x.1.name.toList := by
  rw [coded_eq]
  decide +kernel

/-- The words of the line that declares a pin. -/
def declarationWords (x : Pin × String) : List (List Char) :=
  ["$var".toList, "wire".toList, (toString x.1.width).toList, x.2.toList, x.1.name.toList,
    "$end".toList]

/-- The line that declares a pin. -/
def declarationLine (x : Pin × String) : List Char := [' '].intercalate (declarationWords x)

theorem readWire_declarationLine {x : Pin × String} (hx : x ∈ coded) :
    readWire (declarationLine x) = some (wire x) := by
  obtain ⟨hcode, _, hname, _⟩ := plain_of_mem_coded x hx
  have hwidth : ' ' ∉ (toString x.1.width).toList := by
    intro hmem
    exact absurd (isDigit_of_mem_toString hmem) (by decide)
  have hwords : (declarationLine x).splitOn ' ' = declarationWords x := by
    apply List.splitOn_intercalate
    · simp only [declarationWords, List.forall_mem_cons]
      exact ⟨by decide, by decide, hwidth, hcode, hname, by decide, by simp⟩
    · simp [declarationWords]
  have hnat : (toString x.1.width).toNat? = some x.1.width := Nat.toNat?_repr x.1.width
  rw [readWire, hwords, declarationWords]
  simp only [and_self, if_true, String.ofList_toList, hnat]
  rfl

theorem declaration_chars (x : Pin × String) :
    (declaration x.1 x.2).flatMap String.toList = declarationLine x ++ ['\n'] := by
  simp only [declaration, declarationLine, declarationWords, List.intercalate, List.intersperse,
    List.flatten_cons, List.flatten_nil, List.flatMap_cons, List.flatMap_nil, List.append_assoc,
    List.cons_append, List.nil_append, List.append_nil]
  rfl

theorem bit_of_mem_toDigits {n : Nat} {c : Char} (h : c ∈ Nat.toDigits 2 n) : c = '0' ∨ c = '1' := by
  have hbit : ∀ d < 2, d.digitChar = '0' ∨ d.digitChar = '1' := by decide
  induction n using Nat.strongRecOn with
  | ind n ih =>
    rcases Nat.lt_or_ge n 2 with hlt | hge
    · rw [Nat.toDigits_of_lt_base hlt, List.mem_singleton] at h
      rw [h]
      exact hbit n hlt
    · rw [Nat.toDigits_of_base_le (by decide) hge, List.mem_append, List.mem_singleton] at h
      rcases h with h | rfl
      · exact ih (n / 2) (by omega) h
      · exact hbit (n % 2) (Nat.mod_lt n (by decide))

/-- A padded number has a digit for each bit, and the digits give the number back. -/
theorem binary_digits {width n : Nat} (hwidth : 0 < width) (h : n < 2 ^ width) :
    (binary width n).toList.length = width ∧
      (∀ c ∈ (binary width n).toList, c = '0' ∨ c = '1') ∧
      Nat.ofDigitChars 2 (binary width n).toList 0 = n := by
  have hlength := (Nat.length_toDigits_le_iff (by decide) hwidth).mpr h
  simp only [binary, String.toList_ofList]
  refine ⟨?_, ?_, ?_⟩
  · rw [List.length_append, List.length_replicate]
    omega
  · intro c hc
    rcases List.mem_append.mp hc with hc | hc
    · exact Or.inl (List.eq_of_mem_replicate hc)
    · exact bit_of_mem_toDigits hc
  · rw [Nat.ofDigitChars_append, Nat.ofDigitChars_replicate_zero, Nat.mul_zero,
      Nat.ofDigitChars_toDigits (by decide) (by decide)]

/-- The digit of a flag. -/
def flag (p : Pins) (pin : Pin) : Char := if p.value pin &&& 1 = 1 then '1' else '0'

/-- The line that gives a pin a value. -/
def changeLine (p : Pins) (x : Pin × String) : List Char :=
  if x.1.width = 1 then flag p x.1 :: x.2.toList
  else 'b' :: (binary x.1.width (p.value x.1).toNat).toList ++ ' ' :: x.2.toList

theorem change_chars (p : Pins) (x : Pin × String) :
    (change p x.1 x.2).flatMap String.toList = changeLine p x ++ ['\n'] := by
  unfold change changeLine flag
  split
  · split <;> simp
  · simp

theorem flag_value {p : Pins} {pin : Pin} (h : pin.width = 1) :
    (flag p pin = '0' ∨ flag p pin = '1') ∧
      Nat.ofDigitChars 2 [flag p pin] 0 = (p.value pin).toNat := by
  have hlt := p.value_lt pin
  have hbit : (p.value pin).toNat = 0 ∨ (p.value pin).toNat = 1 := by
    rw [h] at hlt
    omega
  unfold flag
  rcases hbit with hv | hv
  · rw [show p.value pin = 0 from UInt32.toNat_inj.mp hv]
    decide
  · rw [show p.value pin = 1 from UInt32.toNat_inj.mp hv]
    decide

theorem readValue_coded {x : Pin × String} (digits : List Char) (hx : x ∈ coded)
    (hlength : digits.length = x.1.width) (hdigits : ∀ c ∈ digits, c = '0' ∨ c = '1') :
    readValue (coded.map wire) digits x.2.toList =
      some (.change x.1.name (Nat.ofDigitChars 2 digits 0)) := by
  rw [readValue, wire_of_code x hx]
  exact if_pos (by simpa [wire, hlength] using hdigits)

theorem readLine_changeLine {x : Pin × String} (p : Pins) (hx : x ∈ coded) :
    readLine (coded.map wire) (changeLine p x) = some (.change x.1.name (p.value x.1).toNat) := by
  unfold changeLine
  split
  next h =>
    obtain ⟨hflag, hvalue⟩ := flag_value (p := p) h
    have hread := readValue_coded [flag p x.1] hx h.symm (by simpa using hflag)
    rw [hvalue] at hread
    rw [← hread]
    rcases hflag with hflag | hflag <;> rw [hflag] <;> rfl
  next h =>
    obtain ⟨hlength, hdigits, hvalue⟩ := binary_digits x.1.width_pos (p.value_lt x.1)
    have hread := readValue_coded _ hx hlength hdigits
    rw [hvalue] at hread
    have hblank : ' ' ∉ (binary x.1.width (p.value x.1).toNat).toList := by
      intro hmem
      exact absurd (hdigits ' ' hmem) (by decide)
    have hsplit := List.splitOn_append_cons_self_of_not_mem hblank x.2.toList
    rw [List.splitOn_eq_singleton (plain_of_mem_coded x hx).1] at hsplit
    rw [← hread]
    simp only [List.cons_append, readLine, hsplit]

theorem newline_not_mem_changeLine {x : Pin × String} (p : Pins) (hx : x ∈ coded) :
    '\n' ∉ changeLine p x := by
  have hcode := (plain_of_mem_coded x hx).2.1
  unfold changeLine
  split
  next h =>
    obtain ⟨hflag, _⟩ := flag_value (p := p) h
    rcases hflag with hflag | hflag <;> simp [hflag, hcode]
  next h =>
    have hdigits : '\n' ∉ (binary x.1.width (p.value x.1).toNat).toList := by
      intro hmem
      exact absurd ((binary_digits x.1.width_pos (p.value_lt x.1)).2.1 _ hmem) (by decide)
    simp [hdigits, hcode]

/-- The lines of the header up to the end of the definitions. -/
def headerLines (timescale : String) : List (List Char) :=
  ["$date".toList, "  Simulation date".toList, "$end".toList, "$version".toList,
   "  cyclebench".toList, "$end".toList, "$timescale".toList, ' ' :: ' ' :: timescale.toList,
   "$end".toList, "$scope module dut $end".toList] ++
  coded.map declarationLine ++ ["$upscope $end".toList]

theorem header_chars (timescale : String) :
    (header timescale).flatMap String.toList =
      unlines (headerLines timescale ++ [lastDefinition]) := by
  have hpins : (coded.flatMap fun x => declaration x.1 x.2).flatMap String.toList =
      unlines (coded.map declarationLine) := by
    rw [unlines, List.flatMap_map, List.flatMap_assoc]
    congr 1
    funext x
    exact declaration_chars x
  unfold header headerLines
  simp only [unlines, List.flatMap_append] at hpins ⊢
  rw [hpins]
  simp only [List.flatMap_cons, List.flatMap_nil, List.append_assoc, List.cons_append,
    List.nil_append, List.append_nil]
  rfl

theorem newline_not_mem_declarationLine {x : Pin × String} (hx : x ∈ coded) :
    '\n' ∉ declarationLine x := by
  obtain ⟨_, hcode, _, hname⟩ := plain_of_mem_coded x hx
  have hwidth : '\n' ∉ (toString x.1.width).toList := by
    intro hmem
    exact absurd (isDigit_of_mem_toString hmem) (by decide)
  simp only [declarationLine, declarationWords, List.intercalate, List.intersperse,
    List.flatten_cons, List.flatten_nil, List.mem_append, not_or]
  exact ⟨by decide, by decide, by decide, by decide, hwidth, by decide, hcode, by decide, hname,
    by decide, by decide, by simp⟩

theorem readWire_lastDefinition : readWire lastDefinition = none := by
  decide

theorem headerLines_plain {timescale : String} (h : '\n' ∉ timescale.toList) :
    ∀ l ∈ headerLines timescale, '\n' ∉ l ∧ l ≠ lastDefinition := by
  have hscale : '\n' ∉ ' ' :: ' ' :: timescale.toList ∧
      ' ' :: ' ' :: timescale.toList ≠ lastDefinition := by
    refine ⟨by simpa using h, ?_⟩
    intro heq
    have hhead : lastDefinition.head? = some '$' := by decide
    rw [← heq, List.head?_cons] at hhead
    exact absurd hhead (by decide)
  have hpins : ∀ l ∈ coded.map declarationLine, '\n' ∉ l ∧ l ≠ lastDefinition := by
    intro l hl
    obtain ⟨x, hx, rfl⟩ := List.mem_map.mp hl
    refine ⟨newline_not_mem_declarationLine hx, ?_⟩
    intro heq
    have hread := readWire_declarationLine hx
    rw [heq, readWire_lastDefinition] at hread
    cases hread
  unfold headerLines
  simp only [List.forall_mem_append, List.forall_mem_cons]
  refine ⟨⟨⟨?_, ?_, ?_, ?_, ?_, ?_, ?_, hscale, ?_, ?_, ?_⟩, hpins⟩, ?_, ?_⟩ <;> decide

theorem readWire_of_blank (rest : List Char) : readWire (' ' :: rest) = none := by
  have hsplit : (' ' :: rest).splitOn ' ' = [] :: rest.splitOn ' ' :=
    List.splitOn_append_cons_self_of_not_mem (List.not_mem_nil) rest
  unfold readWire
  rw [hsplit]
  split
  next key kind width code name stop heq =>
    obtain ⟨rfl, _⟩ := List.cons.inj heq
    exact if_neg (fun hwords => absurd hwords.1 (by decide))
  next => rfl

theorem headerLines_wires (timescale : String) :
    (headerLines timescale).filterMap readWire = coded.map wire := by
  have hpins : (coded.map declarationLine).filterMap readWire = coded.map wire := by
    rw [List.filterMap_map]
    exact List.filterMap_eq_map_iff_forall_eq_some.mpr fun x hx => readWire_declarationLine hx
  unfold headerLines
  simp only [List.filterMap_append, hpins, List.filterMap_cons, readWire_of_blank]
  rfl

/-- The line that marks a tick. -/
def markLine (tick : Nat) : List Char := '#' :: (toString tick).toList

/-- The lines of a sample. -/
def sampleLines (tick : Nat) (p : Pins) : Option Pins → List (List Char)
  | none => markLine tick :: "$dumpvars".toList :: (coded.map (changeLine p) ++ ["$end".toList])
  | some last =>
    if last.values = p.values then []
    else markLine tick :: (coded.filter fun x => last.value x.1 != p.value x.1).map (changeLine p)

theorem changes_chars (p : Pins) (xs : List (Pin × String)) :
    (changes p xs).flatMap String.toList = unlines (xs.map (changeLine p)) := by
  rw [changes, unlines, List.flatMap_map, List.flatMap_assoc]
  congr 1
  funext x
  exact change_chars p x

theorem mark_chars (tick : Nat) : (mark tick).flatMap String.toList = markLine tick ++ ['\n'] := by
  simp [mark, markLine]

theorem sample_chars (tick : Nat) (p : Pins) (last : Option Pins) :
    (sample tick p last).flatMap String.toList = unlines (sampleLines tick p last) := by
  cases last with
  | none =>
    simp only [sample, sampleLines, unlines, List.flatMap_append, List.flatMap_cons, mark_chars,
      changes_chars, List.append_assoc]
    rfl
  | some last =>
    simp only [sample, sampleLines]
    split
    · rfl
    · simp only [unlines, List.flatMap_append, List.flatMap_cons, mark_chars, changes_chars]

theorem newline_not_mem_sampleLines (tick : Nat) (p : Pins) (last : Option Pins) :
    ∀ l ∈ sampleLines tick p last, '\n' ∉ l := by
  have hmark : '\n' ∉ markLine tick := by
    intro hmem
    rcases List.mem_cons.mp hmem with heq | hmem
    · exact absurd heq (by decide)
    · exact absurd (isDigit_of_mem_toString hmem) (by decide)
  have hchanges : ∀ xs : List (Pin × String), xs ⊆ coded →
      ∀ l ∈ xs.map (changeLine p), '\n' ∉ l := by
    intro xs hsub l hl
    obtain ⟨x, hx, rfl⟩ := List.mem_map.mp hl
    exact newline_not_mem_changeLine p (hsub hx)
  cases last with
  | none =>
    simp only [sampleLines, List.forall_mem_cons, List.forall_mem_append]
    exact ⟨hmark, by decide, hchanges coded (List.Subset.refl coded), by decide⟩
  | some last =>
    simp only [sampleLines]
    split
    · simp
    · exact List.forall_mem_cons.mpr ⟨hmark, hchanges _ (List.filter_subset_self coded)⟩

/-- The values of pins under their names. -/
def listed (p : Pins) (pins : List Pin) : List (String × Nat) :=
  pins.map fun pin => (pin.name, (p.value pin).toNat)

/-- What a sample adds to a dump: all pins at first, then those that differ from the sample
before, and nothing where none does. -/
def delta (tick : Nat) (p : Pins) : Option Pins → List Block
  | none => [⟨tick, listed p Pin.all⟩]
  | some last =>
    if last.values = p.values then []
    else [⟨tick, listed p (Pin.all.filter fun pin => last.value pin != p.value pin)⟩]

theorem coded_pins : coded.map Prod.fst = Pin.all := by
  rw [coded_eq]
  rfl

theorem filter_coded_pins (f : Pin → Bool) :
    (coded.filter fun x => f x.1).map Prod.fst = Pin.all.filter f := by
  rw [← coded_pins, List.filter_map]
  rfl

theorem readBody_changes {xs : List (Pin × String)} {body : List (List Char)}
    {changes : List (String × Nat)} {blocks : List Block} (p : Pins) (hxs : xs ⊆ coded)
    (h : readBody (coded.map wire) body = some (changes, blocks)) :
    readBody (coded.map wire) (xs.map (changeLine p) ++ body) =
      some (listed p (xs.map Prod.fst) ++ changes, blocks) := by
  induction xs with
  | nil => exact h
  | cons x xs ih =>
    obtain ⟨hx, hxs⟩ := List.cons_subset.mp hxs
    exact readBody_change (readLine_changeLine p hx) (ih hxs)

theorem readBody_sampleLines {body : List (List Char)} {blocks : List Block} (tick : Nat)
    (p : Pins) (last : Option Pins) (h : readBody (coded.map wire) body = some ([], blocks)) :
    readBody (coded.map wire) (sampleLines tick p last ++ body) =
      some ([], delta tick p last ++ blocks) := by
  cases last with
  | none =>
    have hstop : readBody (coded.map wire) ("$end".toList :: body) = some ([], blocks) :=
      (readBody_keyword _ rfl).trans h
    have hchanges := readBody_changes p (List.Subset.refl coded) hstop
    have hdump := (readBody_keyword "$dumpvars".toList rfl).trans hchanges
    have hmark := readBody_marker tick hdump
    rw [List.append_nil, coded_pins] at hmark
    simpa only [sampleLines, delta, markLine, List.cons_append, List.append_assoc,
      List.nil_append] using hmark
  | some last =>
    simp only [sampleLines, delta]
    split
    · exact h
    · have hchanges := readBody_changes p
        (List.filter_subset_self (p := fun x => last.value x.1 != p.value x.1) coded) h
      have hmark := readBody_marker tick hchanges
      rw [List.append_nil, filter_coded_pins fun pin => last.value pin != p.value pin] at hmark
      exact hmark

end Vcd

end BusBench

import BusBench.MemoryImage
import BusBench.Proofs.HexDigits
import BusBench.Proofs.Lines

namespace BusBench

/-- What may mark the radix of a spelled word. -/
inductive RadixMark where
  | none
  | lower
  | upper

def RadixMark.chars : RadixMark → List Char
  | none => []
  | lower => ['0', 'x']
  | upper => ['0', 'X']

theorem RadixMark.isBlank_of_mem {mark : RadixMark} {c : Char} (h : c ∈ mark.chars) :
    isBlank c = false := by
  have hall : mark.chars.all (!isBlank ·) = true := by cases mark <;> rfl
  simpa using List.all_eq_true.mp hall c h

/-- A radix mark is all that is dropped from a text without another x. -/
theorem dropRadix_marked (mark : RadixMark) {cs : List Char} (hlower : 'x' ∉ cs)
    (hupper : 'X' ∉ cs) : dropRadix (mark.chars ++ cs) = cs := by
  cases mark with
  | lower => rfl
  | upper => rfl
  | none =>
    change dropRadix cs = cs
    unfold dropRadix
    split
    next => exact absurd (by simp) hlower
    next => exact absurd (by simp) hupper
    next => rfl

/-- A word as an image may spell it. -/
structure Spelling where
  mark : RadixMark
  digits : List HexDigit
  some_digit : digits ≠ []
  eight_digits : digits.length ≤ 8

namespace Spelling

def chars (s : Spelling) : List Char := s.mark.chars ++ HexDigit.chars s.digits

def word (s : Spelling) : Word := .ofNat (HexDigit.number s.digits)

variable (s : Spelling)

/-- Eight digits always fit a word, so that a spelling is read as the number it writes. -/
theorem word_toNat : s.word.toNat = HexDigit.number s.digits :=
  UInt32.toNat_ofNat_of_lt' (HexDigit.number_lt_size s.eight_digits)

theorem isBlank_of_mem {c : Char} (h : c ∈ s.chars) : isBlank c = false := by
  rcases List.mem_append.mp h with hmark | hdigit
  · exact RadixMark.isBlank_of_mem hmark
  · obtain ⟨d, -, rfl⟩ := List.mem_map.mp hdigit
    exact d.isBlank_char

theorem chars_ne_nil : s.chars ≠ [] := by
  intro h
  have hdigits := (List.append_eq_nil_iff.mp h).2
  exact s.some_digit (List.map_eq_nil_iff.mp hdigits)

theorem dropRadix_chars : dropRadix s.chars = HexDigit.chars s.digits :=
  dropRadix_marked s.mark (HexDigit.not_mem_chars (by decide) s.digits)
    (HexDigit.not_mem_chars (by decide) s.digits)

end Spelling

theorem exists_mark (cs : List Char) : ∃ mark : RadixMark, cs = mark.chars ++ dropRadix cs := by
  unfold dropRadix
  split
  next => exact ⟨.lower, rfl⟩
  next => exact ⟨.upper, rfl⟩
  next => exact ⟨.none, rfl⟩

theorem imageWord?_chars (s : Spelling) : imageWord? s.chars = some s.word := by
  have hdigits : (HexDigit.chars s.digits).all isHexDigit = true :=
    HexDigit.all_isHexDigit_iff.mpr ⟨_, rfl⟩
  have hlength : (HexDigit.chars s.digits).length = s.digits.length := List.length_map _
  have hsome : (HexDigit.chars s.digits).isEmpty = false := by
    simpa [HexDigit.chars] using s.some_digit
  have hread := HexDigit.signedHexValue_chars (HexDigit.number_lt_size s.eight_digits)
  have height := s.eight_digits
  simp [imageWord?, s.dropRadix_chars, hdigits, hlength, hsome, hread, Nat.not_lt.mpr height,
    Spelling.word]

/-- A text is taken for a word exactly if it spells one. -/
theorem imageWord?_eq_some_iff {text : List Char} {w : Word} :
    imageWord? text = some w ↔ ∃ s : Spelling, text = s.chars ∧ s.word = w := by
  constructor
  · intro h
    have hcond : ((dropRadix text).isEmpty || (dropRadix text).length > 8 ||
        !(dropRadix text).all isHexDigit) = false := by
      refine Bool.eq_false_iff.mpr fun hc => ?_
      have hnone : imageWord? text = none := if_pos hc
      cases hnone.symm.trans h
    simp only [Bool.or_eq_false_iff, decide_eq_false_iff_not, Bool.not_eq_false'] at hcond
    obtain ⟨⟨hsome, height⟩, hdigits⟩ := hcond
    obtain ⟨ds, hds⟩ := HexDigit.all_isHexDigit_iff.mp hdigits
    obtain ⟨mark, htext⟩ := exists_mark text
    rw [← hds] at hsome height htext
    have hspelling : text = Spelling.chars ⟨mark, ds, by simpa [HexDigit.chars] using hsome,
        by simpa [HexDigit.chars] using height⟩ := htext
    refine ⟨_, hspelling, ?_⟩
    rw [hspelling, imageWord?_chars] at h
    exact Option.some.inj h
  · rintro ⟨s, rfl, rfl⟩
    exact imageWord?_chars s

/-- A line that is blank or spells one word. -/
def Spelled (l : List Char) : Prop := trim l = [] ∨ ∃ s : Spelling, trim l = s.chars

/-- Lines read as words, each with the number of its line; the first line has number `n`. -/
inductive Reads : Nat → List (List Char) → List ImageWord → Prop where
  | done (n : Nat) : Reads n [] []
  | blank {n : Nat} {l : List Char} {ls : List (List Char)} {ws : List ImageWord} :
      trim l = [] → Reads (n + 1) ls ws → Reads n (l :: ls) ws
  | word {n : Nat} {l : List Char} {ls : List (List Char)} {ws : List ImageWord} (s : Spelling) :
      trim l = s.chars → Reads (n + 1) ls ws → Reads n (l :: ls) (⟨n, s.word⟩ :: ws)

section

variable {n : Nat} {l : List Char} {ls : List (List Char)} {ws : List ImageWord}

theorem imageWords_blank (h : trim l = []) : imageWords n (l :: ls) = imageWords (n + 1) ls := by
  simp [imageWords, h]

theorem imageWords_word {s : Spelling} (h : trim l = s.chars) :
    imageWords n (l :: ls) = (imageWords (n + 1) ls).map (⟨n, s.word⟩ :: ·) := by
  simp [imageWords, h, s.chars_ne_nil, imageWord?_chars]

theorem imageWords_unspelled (h : ¬ Spelled l) :
    imageWords n (l :: ls) = .error (.malformed n (String.ofList (trim l))) := by
  have hsome : trim l ≠ [] := fun hnil => h (.inl hnil)
  have hnone : imageWord? (trim l) = none := by
    cases hw : imageWord? (trim l) with
    | none => rfl
    | some w =>
      obtain ⟨s, hs, -⟩ := imageWord?_eq_some_iff.mp hw
      exact absurd (.inr ⟨s, hs⟩) h
  simp [imageWords, hsome, hnone]

theorem Reads.imageWords_eq (h : Reads n ls ws) : imageWords n ls = .ok ws := by
  induction h with
  | done n => rfl
  | blank hl _ ih => rw [imageWords_blank hl, ih]
  | word s hl _ ih => rw [imageWords_word hl, ih]; rfl

theorem exists_reads (n : Nat) (h : ∀ l ∈ ls, Spelled l) : ∃ ws, Reads n ls ws := by
  induction ls generalizing n with
  | nil => exact ⟨[], .done n⟩
  | cons l ls ih =>
    obtain ⟨ws, hws⟩ := ih (n + 1) fun l' hl' => h l' (List.mem_cons_of_mem l hl')
    rcases h l List.mem_cons_self with hl | ⟨s, hl⟩
    · exact ⟨ws, .blank hl hws⟩
    · exact ⟨_, .word s hl hws⟩

theorem Reads.spelled (h : Reads n ls ws) : ∀ l ∈ ls, Spelled l := by
  induction h with
  | done n => exact fun l hl => absurd hl List.not_mem_nil
  | blank hl _ ih => exact List.forall_mem_cons.mpr ⟨.inl hl, ih⟩
  | word s hl _ ih => exact List.forall_mem_cons.mpr ⟨.inr ⟨s, hl⟩, ih⟩

theorem imageWords_append_unspelled {before after : List (List Char)}
    (hbefore : ∀ b ∈ before, Spelled b) (hl : ¬ Spelled l) :
    imageWords n (before ++ l :: after) =
      .error (.malformed (n + before.length) (String.ofList (trim l))) := by
  induction before generalizing n with
  | nil => exact imageWords_unspelled hl
  | cons b before ih =>
    have hrest := ih (n := n + 1) fun b' hb' => hbefore b' (List.mem_cons_of_mem b hb')
    rw [show n + 1 + before.length = n + (b :: before).length by
      rw [List.length_cons]; omega] at hrest
    rw [List.cons_append]
    rcases hbefore b List.mem_cons_self with hb | ⟨s, hb⟩
    · rw [imageWords_blank hb, hrest]
    · rw [imageWords_word hb, hrest]
      rfl

theorem imageWords_eq_ok_iff : imageWords n ls = .ok ws ↔ Reads n ls ws := by
  constructor
  · intro h
    by_cases hall : ∀ l ∈ ls, Spelled l
    · obtain ⟨ws', hws⟩ := exists_reads n hall
      rw [hws.imageWords_eq] at h
      cases h
      exact hws
    · obtain ⟨before, l, after, rfl, hbefore, hl⟩ := exists_first_not hall
      rw [imageWords_append_unspelled hbefore hl] at h
      cases h
  · exact Reads.imageWords_eq

theorem imageWords_eq_error_iff {e : PreloadError} :
    imageWords n ls = .error e ↔ ∃ before l after, ls = before ++ l :: after ∧
      (∀ b ∈ before, Spelled b) ∧ ¬ Spelled l ∧
      e = .malformed (n + before.length) (String.ofList (trim l)) := by
  constructor
  · intro he
    have hnot : ¬ ∀ l ∈ ls, Spelled l := by
      intro hall
      obtain ⟨ws, hws⟩ := exists_reads n hall
      cases he.symm.trans hws.imageWords_eq
    obtain ⟨before, l, after, rfl, hbefore, hl⟩ := exists_first_not hnot
    rw [imageWords_append_unspelled hbefore hl] at he
    cases he
    exact ⟨before, l, after, rfl, hbefore, hl, rfl⟩
  · rintro ⟨before, l, after, rfl, hbefore, hl, rfl⟩
    exact imageWords_append_unspelled hbefore hl

end

/-- How a line of an image may end. -/
inductive LineEnd where
  | feed
  | returnFeed

def LineEnd.chars : LineEnd → List Char
  | feed => ['\n']
  | returnFeed => ['\r', '\n']

/-- A line with at most one word and blanks around it, none of which ends the line. -/
structure ImageLine where
  before : List Char
  spelling : Option Spelling
  after : List Char
  blank_before : ∀ c ∈ before, isBlank c = true ∧ c ≠ '\n'
  blank_after : ∀ c ∈ after, isBlank c = true ∧ c ≠ '\n'

namespace ImageLine

def content (l : ImageLine) : List Char := (l.spelling.map Spelling.chars).getD []

def chars (l : ImageLine) : List Char := l.before ++ l.content ++ l.after

variable (l : ImageLine)

theorem isBlank_of_mem_content {c : Char} (h : c ∈ l.content) : isBlank c = false := by
  unfold content at h
  cases hs : l.spelling with
  | none => rw [hs] at h; cases h
  | some s => rw [hs] at h; exact s.isBlank_of_mem h

theorem trim_chars : trim l.chars = l.content :=
  trim_between (fun c hc => (l.blank_before c hc).1) (fun c hc => (l.blank_after c hc).1)
    (fun _ hc => l.isBlank_of_mem_content (List.mem_of_mem_head? hc))
    (fun _ hc => l.isBlank_of_mem_content (List.mem_of_getLast? hc))

theorem feed_not_mem_chars : '\n' ∉ l.chars := by
  intro h
  rcases List.mem_append.mp h with h | h
  · rcases List.mem_append.mp h with h | h
    · exact (l.blank_before _ h).2 rfl
    · cases l.isBlank_of_mem_content h
  · exact (l.blank_after _ h).2 rfl

/-- Whichever way a line ends, the same is left of it once it is trimmed. -/
theorem lines_chars (e : LineEnd) (rest : List Char) :
    ∃ l', lines (l.chars ++ e.chars ++ rest) = l' :: lines rest ∧ trim l' = l.content := by
  have hreturn : ∀ cs, trim (cs ++ ['\r']) = trim cs := fun cs => trim_concat cs (by decide)
  have hended : ∀ cs, '\n' ∉ cs → trim cs = l.content →
      ∃ l', lines (cs ++ '\n' :: rest) = l' :: lines rest ∧ trim l' = l.content := by
    intro cs hcs htrim
    obtain ⟨l', hl, rfl | rfl⟩ := lines_ended hcs rest
    · exact ⟨_, hl, htrim⟩
    · exact ⟨l', hl, by rw [← hreturn, htrim]⟩
  cases e with
  | feed =>
    obtain ⟨l', hl, htrim⟩ := hended l.chars l.feed_not_mem_chars l.trim_chars
    exact ⟨l', by simpa [LineEnd.chars] using hl, htrim⟩
  | returnFeed =>
    have hfeed : '\n' ∉ l.chars ++ ['\r'] := by
      simpa using l.feed_not_mem_chars
    obtain ⟨l', hl, htrim⟩ := hended (l.chars ++ ['\r']) hfeed (by rw [hreturn, l.trim_chars])
    exact ⟨l', by simpa [LineEnd.chars] using hl, htrim⟩

/-- The words on lines, the first of which has number `n`. -/
def words (n : Nat) : List ImageLine → List ImageWord
  | [] => []
  | l :: ls => (l.spelling.map fun s => ⟨n, s.word⟩).toList ++ words (n + 1) ls

end ImageLine

/-- An image as it may be written: lines with their ends, and a last line that may be empty and
that nothing ends. -/
structure WrittenImage where
  lines : List (ImageLine × LineEnd)
  last : ImageLine

namespace WrittenImage

def chars (i : WrittenImage) : List Char :=
  (i.lines.flatMap fun x => x.1.chars ++ x.2.chars) ++ i.last.chars

def words (i : WrittenImage) : List ImageWord := ImageLine.words 1 (i.lines.map (·.1) ++ [i.last])

def spellings (i : WrittenImage) : List Spelling :=
  (i.lines.map (·.1) ++ [i.last]).filterMap (·.spelling)

end WrittenImage

theorem Reads.cons_content {n : Nat} {l : List Char} {ls : List (List Char)} {ws : List ImageWord}
    (line : ImageLine) (hl : trim l = line.content) (h : Reads (n + 1) ls ws) :
    Reads n (l :: ls) ((line.spelling.map fun s => ⟨n, s.word⟩).toList ++ ws) := by
  unfold ImageLine.content at hl
  cases hs : line.spelling with
  | none => rw [hs] at hl; exact .blank hl h
  | some s => rw [hs] at hl; exact .word s hl h

theorem reads_written (n : Nat) (ls : List (ImageLine × LineEnd)) (last : ImageLine) :
    Reads n (lines (WrittenImage.chars ⟨ls, last⟩))
      (ImageLine.words n (ls.map (·.1) ++ [last])) := by
  induction ls generalizing n with
  | nil =>
    show Reads n (lines last.chars) (_ ++ [])
    rw [lines_open last.feed_not_mem_chars]
    split
    next hnil =>
      have hcontent : last.content = [] := by
        rw [← last.trim_chars, hnil]
        rfl
      have hnone : last.spelling = none := by
        cases hs : last.spelling with
        | none => rfl
        | some s =>
          rw [ImageLine.content, hs] at hcontent
          exact absurd hcontent s.chars_ne_nil
      rw [hnone]
      exact .done n
    next => exact .cons_content last last.trim_chars (.done (n + 1))
  | cons x ls ih =>
    obtain ⟨line, e⟩ := x
    obtain ⟨l', hl, htrim⟩ := line.lines_chars e (WrittenImage.chars ⟨ls, last⟩)
    have hchars : WrittenImage.chars ⟨(line, e) :: ls, last⟩ =
        line.chars ++ e.chars ++ WrittenImage.chars ⟨ls, last⟩ := by
      simp [WrittenImage.chars]
    rw [hchars, hl]
    exact .cons_content line htrim (ih (n + 1))

theorem ImageLine.words_map_word (n : Nat) (ls : List ImageLine) :
    (ImageLine.words n ls).map (·.word) = (ls.filterMap (·.spelling)).map Spelling.word := by
  induction ls generalizing n with
  | nil => rfl
  | cons l ls ih =>
    rw [ImageLine.words, List.map_append, ih, List.filterMap_cons]
    cases l.spelling <;> rfl

/-- Every word has spellings of each length that it fits, with each mark. -/
theorem Spelling.exists_word (w : Word) (mark : RadixMark) {k : Nat} (hsome : k ≠ 0)
    (height : k ≤ 8) (hfits : w.toNat < 16 ^ k) :
    ∃ s : Spelling, s.mark = mark ∧ s.digits.length = k ∧ s.word = w := by
  have hlength := HexDigit.length_ofNumber k w.toNat
  refine ⟨⟨mark, HexDigit.ofNumber k w.toNat, ?_, by omega⟩, rfl, hlength, ?_⟩
  · intro hnil
    rw [hnil] at hlength
    exact hsome hlength.symm
  · rw [word, HexDigit.number_ofNumber hfits, UInt32.ofNat_toNat]

/-- An image is read exactly if each of its lines is blank or spells a word, and gives the words
with the numbers of their lines; else the first other line is blamed. The numbers themselves can
always be read. Words are read back however they are written. -/
theorem parseImage_reads_spelled :
    (∀ text, (∃ ws, parseImage text = .ok ws) ↔ ∀ l ∈ lines text.toList, Spelled l) ∧
    (∀ text ws, parseImage text = .ok ws ↔ Reads 1 (lines text.toList) ws) ∧
    (∀ s : Spelling, s.word.toNat = HexDigit.number s.digits) ∧
    (∀ digits : List Char, digits.all isHexDigit = true → digits.length ≤ 8 →
      ∃ n, signedHexValue digits = .ok n) ∧
    (∀ text e, parseImage text = .error e ↔ ∃ before l after,
      lines text.toList = before ++ l :: after ∧ (∀ b ∈ before, Spelled b) ∧ ¬ Spelled l ∧
        e = .malformed (1 + before.length) (String.ofList (trim l))) ∧
    (∀ i : WrittenImage, parseImage (String.ofList i.chars) = .ok i.words ∧
      i.words.map (·.word) = i.spellings.map Spelling.word) ∧
    ∀ (w : Word) (mark : RadixMark) (k : Nat), k ≠ 0 → k ≤ 8 → w.toNat < 16 ^ k →
      ∃ s : Spelling, s.mark = mark ∧ s.digits.length = k ∧ s.word = w := by
  refine ⟨?_, fun text ws => imageWords_eq_ok_iff, Spelling.word_toNat,
    fun _ => HexDigit.exists_signedHexValue, fun text e => imageWords_eq_error_iff, ?_, ?_⟩
  · intro text
    constructor
    · rintro ⟨ws, hws⟩
      exact (imageWords_eq_ok_iff.mp hws).spelled
    · intro hall
      obtain ⟨ws, hws⟩ := exists_reads 1 hall
      exact ⟨ws, hws.imageWords_eq⟩
  · intro i
    refine ⟨?_, ImageLine.words_map_word 1 _⟩
    rw [parseImage, String.toList_ofList]
    exact (reads_written 1 i.lines i.last).imageWords_eq
  · intro w mark k hsome height hfits
    exact Spelling.exists_word w mark hsome height hfits

example : parseImage " 0x10\r\n\n\tFf" = .ok [⟨1, 0x10⟩, ⟨3, 0xff⟩] := by decide +kernel

end BusBench

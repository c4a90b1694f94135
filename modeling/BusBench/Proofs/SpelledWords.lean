import BusBench.Proofs.ImageText
import Mathlib.Data.List.ReduceOption

namespace BusBench

namespace HexDigit

variable {n : Nat} {cs : List Char}

/-- Read are the digits that write a number, after a number read before. -/
theorem hexValue_eq_ok_iff {acc : Nat} (hacc : acc < UInt32.size) :
    hexValue acc cs = .ok n ↔
      ∃ ds, cs = chars ds ∧ acc * 16 ^ ds.length + number ds = n ∧ n < UInt32.size := by
  constructor
  · intro h
    induction cs generalizing acc with
    | nil =>
      cases h
      exact ⟨[], rfl, by simp [number], hacc⟩
    | cons c cs ih =>
      rw [hexValue] at h
      split at h
      next => cases h
      next v hv =>
        split at h
        next hfits =>
          obtain ⟨ds, rfl, hn, hlt⟩ := ih hfits h
          obtain ⟨d, rfl⟩ := exists_char (c := c) (by rw [isHexDigit, hv]; rfl)
          obtain rfl : d.value.val = v := Option.some.inj ((hexDigit?_char d).symm.trans hv)
          refine ⟨d :: ds, rfl, ?_, hlt⟩
          rw [← hn, number_cons, List.length_cons]
          ring
        next => cases h
  · rintro ⟨ds, rfl, rfl, hlt⟩
    exact hexValue_chars hlt

theorem hexValue_zero_eq_ok_iff (hcs : cs ≠ []) :
    hexValue 0 cs = .ok n ↔ ∃ ds, ds ≠ [] ∧ number ds = n ∧ n < UInt32.size ∧ cs = chars ds := by
  rw [hexValue_eq_ok_iff (by decide)]
  constructor
  · rintro ⟨ds, rfl, hn, hlt⟩
    exact ⟨ds, fun hnil => hcs (by rw [hnil]; rfl), by simpa using hn, hlt, rfl⟩
  · rintro ⟨ds, -, hn, hlt, rfl⟩
    exact ⟨ds, rfl, by simpa using hn, hlt⟩

theorem signedHexValue_plus (hcs : cs ≠ []) : signedHexValue ('+' :: cs) = hexValue 0 cs := by
  cases cs with
  | nil => exact absurd rfl hcs
  | cons c cs => rfl

theorem signedHexValue_plain {c : Char} (hc : c ≠ '+') :
    signedHexValue (c :: cs) = hexValue 0 (c :: cs) := by
  simp only [signedHexValue]
  split <;> simp_all

/-- One plus sign in front of digits is passed over. -/
theorem signedHexValue_eq_ok_iff (hcs : cs ≠ []) :
    signedHexValue cs = .ok n ↔ ∃ ds, ds ≠ [] ∧ number ds = n ∧ n < UInt32.size ∧
      (cs = chars ds ∨ cs = '+' :: chars ds) := by
  obtain ⟨c, rest, rfl⟩ := List.exists_cons_of_ne_nil hcs
  by_cases hc : c = '+'
  · subst hc
    have hsigned : ∀ ds, '+' :: rest = chars ds ∨ '+' :: rest = '+' :: chars ds ↔
        rest = chars ds := by
      intro ds
      have hplus := not_mem_chars (by decide : isHexDigit '+' = false) ds
      constructor
      · rintro (hdigits | hsigned)
        · exact absurd (hdigits ▸ List.mem_cons_self) hplus
        · exact (List.cons.inj hsigned).2
      · rintro rfl
        exact .inr rfl
    simp only [hsigned]
    by_cases hrest : rest = []
    · subst hrest
      simp only [signedHexValue, reduceCtorEq, false_iff]
      rintro ⟨ds, hsome, -, -, hnil⟩
      exact hsome (List.map_eq_nil_iff.mp hnil.symm)
    · rw [signedHexValue_plus hrest, hexValue_zero_eq_ok_iff hrest]
  · rw [signedHexValue_plain hc, hexValue_zero_eq_ok_iff hcs]
    simp [hc]

/-- The digits of a number, padded with zeros. -/
theorem chars_ofNumber (k : Nat) (h : n < 16 ^ (k + 1)) :
    chars (ofNumber (k + 1) n) =
      List.replicate (k + 1 - (Nat.toDigits 16 n).length) '0' ++ Nat.toDigits 16 n := by
  have hlast : ∀ k n, chars (ofNumber (k + 1) n) =
      chars (ofNumber k (n / 16)) ++ [(n % 16).digitChar] := by
    intro k n
    rw [ofNumber, chars, List.map_append]
    rfl
  induction k generalizing n with
  | zero =>
    have hlt : n < 16 := h
    rw [hlast, Nat.toDigits_of_lt_base hlt, Nat.mod_eq_of_lt hlt]
    rfl
  | succ k ih =>
    have hrest : n / 16 < 16 ^ (k + 1) := Nat.div_lt_of_lt_mul (by rwa [Nat.pow_succ'] at h)
    rw [hlast, ih hrest]
    rcases Nat.lt_or_ge n 16 with hlt | hge
    · rw [Nat.div_eq_of_lt hlt, Nat.mod_eq_of_lt hlt, Nat.toDigits_of_lt_base hlt,
        Nat.toDigits_of_lt_base (by decide)]
      show List.replicate k '0' ++ ['0'] ++ _ = List.replicate (k + 1) '0' ++ _
      rw [← List.replicate_succ']
    · rw [Nat.toDigits_of_base_le (by decide) hge, List.length_append, List.append_assoc]
      simp

end HexDigit

/-- The hexadecimal text of a word has eight digits. -/
theorem Word.toList_hex (w : Word) :
    w.hex.toList = '0' :: 'x' :: HexDigit.chars (HexDigit.ofNumber 8 w.toNat) := by
  rw [HexDigit.chars_ofNumber 7 w.toNat_lt]
  simp [Word.hex]

theorem exists_blanks (cs : List Char) : ∃ before after, cs = before ++ trim cs ++ after ∧
    (∀ c ∈ before, isBlank c = true) ∧ ∀ c ∈ after, isBlank c = true := by
  refine ⟨cs.takeWhile isBlank, ((cs.dropWhile isBlank).reverse.takeWhile isBlank).reverse, ?_,
    fun c hc => List.mem_takeWhile_imp hc,
    fun c hc => List.mem_takeWhile_imp (List.mem_reverse.mp hc)⟩
  have hrest : trim cs ++ ((cs.dropWhile isBlank).reverse.takeWhile isBlank).reverse =
      cs.dropWhile isBlank := by
    rw [trim, ← List.reverse_append, List.takeWhile_append_dropWhile, List.reverse_reverse]
  rw [List.append_assoc, hrest, List.takeWhile_append_dropWhile]

/-- Digits with underscores among them. -/
abbrev SpacedDigits := List (Option HexDigit)

namespace SpacedDigits

def chars (ds : SpacedDigits) : List Char := ds.map fun d => (d.map HexDigit.char).getD '_'

theorem filter_chars (ds : SpacedDigits) :
    ds.chars.filter (· != '_') = HexDigit.chars ds.reduceOption := by
  induction ds with
  | nil => rfl
  | cons d ds ih =>
    cases d with
    | none => simpa [chars] using ih
    | some d =>
      have hdigit : d.char ≠ '_' := by
        have hmem := HexDigit.not_mem_chars (by decide : isHexDigit '_' = false) [d]
        simpa [HexDigit.chars, eq_comm] using hmem
      simpa [chars, HexDigit.chars, hdigit] using ih

theorem exists_chars {cs : List Char} {ds : List HexDigit}
    (h : cs.filter (· != '_') = HexDigit.chars ds) :
    ∃ spaced : SpacedDigits, spaced.chars = cs ∧ spaced.reduceOption = ds := by
  induction cs generalizing ds with
  | nil =>
    obtain rfl : ds = [] := List.map_eq_nil_iff.mp h.symm
    exact ⟨[], rfl, rfl⟩
  | cons c cs ih =>
    by_cases hc : c = '_'
    · subst hc
      obtain ⟨spaced, rfl, rfl⟩ := ih (by simpa using h)
      exact ⟨none :: spaced, rfl, rfl⟩
    · rw [List.filter_cons_of_pos (by simpa using hc)] at h
      obtain ⟨d, ds, rfl, rfl, hds⟩ := List.map_eq_cons_iff.mp h.symm
      obtain ⟨spaced, rfl, rfl⟩ := ih hds.symm
      exact ⟨some d :: spaced, rfl, rfl⟩

theorem reduceOption_map_some (ds : List HexDigit) : (ds.map some).reduceOption = ds := by
  simp [List.reduceOption]

end SpacedDigits

/-- A text that spells a number: blanks around it, a radix mark, a plus sign after underscores,
and at least one digit. -/
structure WordText where
  before : List Char
  mark : RadixMark
  sign : Option Nat
  digits : SpacedDigits
  after : List Char
  blank_before : ∀ c ∈ before, isBlank c = true
  blank_after : ∀ c ∈ after, isBlank c = true
  some_digit : digits.reduceOption ≠ []

namespace WordText

/-- The sign with the underscores before it. -/
def signChars (sign : Option Nat) : List Char :=
  (sign.map fun k => List.replicate k '_' ++ ['+']).getD []

def content (t : WordText) : List Char := t.mark.chars ++ (signChars t.sign ++ t.digits.chars)

def chars (t : WordText) : List Char := t.before ++ t.content ++ t.after

def number (t : WordText) : Nat := HexDigit.number t.digits.reduceOption

variable (t : WordText)

theorem mem_signed {c : Char} (h : c ∈ signChars t.sign ++ t.digits.chars) :
    c = '_' ∨ c = '+' ∨ ∃ d : HexDigit, d.char = c := by
  rcases List.mem_append.mp h with h | h
  · unfold signChars at h
    cases hs : t.sign with
    | none => rw [hs] at h; cases h
    | some k =>
      rw [hs] at h
      rcases List.mem_append.mp h with h | h
      · exact .inl (List.eq_of_mem_replicate h)
      · exact .inr (.inl (List.mem_singleton.mp h))
  · obtain ⟨d, -, rfl⟩ := List.mem_map.mp h
    cases d with
    | none => exact .inl rfl
    | some d => exact .inr (.inr ⟨d, rfl⟩)

theorem isBlank_of_mem_content {c : Char} (h : c ∈ t.content) : isBlank c = false := by
  rcases List.mem_append.mp h with hmark | hsigned
  · exact RadixMark.isBlank_of_mem hmark
  · rcases t.mem_signed hsigned with rfl | rfl | ⟨d, rfl⟩
    · decide
    · decide
    · exact d.isBlank_char

theorem not_mem_signed {c : Char} (hdigit : isHexDigit c = false) (hspace : c ≠ '_')
    (hplus : c ≠ '+') : c ∉ signChars t.sign ++ t.digits.chars := by
  intro h
  rcases t.mem_signed h with rfl | rfl | ⟨d, rfl⟩
  · exact hspace rfl
  · exact hplus rfl
  · rw [isHexDigit, HexDigit.hexDigit?_char] at hdigit
    cases hdigit

/-- What is left of a spelled number are its digits, after the sign if there is one. -/
theorem wordDigits_chars : wordDigits (String.ofList t.chars) =
    (if t.sign.isSome then ['+'] else []) ++ HexDigit.chars t.digits.reduceOption := by
  have htrim : trim t.chars = t.content :=
    trim_between t.blank_before t.blank_after
      (fun _ hc => t.isBlank_of_mem_content (List.mem_of_mem_head? hc))
      (fun _ hc => t.isBlank_of_mem_content (List.mem_of_getLast? hc))
  have hsign : (signChars t.sign).filter (· != '_') = if t.sign.isSome then ['+'] else [] := by
    cases t.sign <;> simp [signChars]
  rw [wordDigits, String.toList_ofList, htrim, content,
    dropRadix_marked _ (t.not_mem_signed (by decide) (by decide) (by decide))
      (t.not_mem_signed (by decide) (by decide) (by decide)),
    List.filter_append, t.digits.filter_chars, hsign]

/-- A text of which digits are left spells their number. -/
theorem exists_unsigned {text : String} {ds : List HexDigit} (hsome : ds ≠ [])
    (h : wordDigits text = HexDigit.chars ds) :
    ∃ t : WordText, t.sign = none ∧ text.toList = t.chars ∧ t.number = HexDigit.number ds := by
  obtain ⟨before, after, htext, hbefore, hafter⟩ := exists_blanks text.toList
  obtain ⟨mark, hmark⟩ := exists_mark (trim text.toList)
  obtain ⟨spaced, hspaced, rfl⟩ := SpacedDigits.exists_chars h
  refine ⟨⟨before, mark, none, spaced, after, hbefore, hafter, hsome⟩, rfl, ?_, rfl⟩
  rw [htext, hmark, ← hspaced]
  rfl

theorem exists_signed {text : String} {ds : List HexDigit} (hsome : ds ≠ [])
    (h : wordDigits text = '+' :: HexDigit.chars ds) :
    ∃ t : WordText, t.sign.isSome ∧ text.toList = t.chars ∧ t.number = HexDigit.number ds := by
  obtain ⟨before, after, htext, hbefore, hafter⟩ := exists_blanks text.toList
  obtain ⟨mark, hmark⟩ := exists_mark (trim text.toList)
  obtain ⟨spaces, rest, hsigned, hspaces, -, hrest⟩ := List.filter_eq_cons_iff.mp h
  obtain ⟨spaced, rfl, rfl⟩ := SpacedDigits.exists_chars hrest
  have hreplicate : spaces = List.replicate spaces.length '_' :=
    List.eq_replicate_of_mem fun c hc => by simpa using hspaces c hc
  refine ⟨⟨before, mark, some spaces.length, spaced, after, hbefore, hafter, hsome⟩, rfl, ?_, rfl⟩
  rw [htext, hmark, hsigned, hreplicate]
  simp [chars, content, signChars]

end WordText

namespace Word

variable {text : String} {w : Word}

/-- A text is a word if it is left with digits, with or without a sign in front of them, that write
a number of 32 bits. -/
theorem parse_eq_ok_iff : parse text = .ok w ↔ ∃ ds, ds ≠ [] ∧ HexDigit.number ds = w.toNat ∧
    (wordDigits text = HexDigit.chars ds ∨ wordDigits text = '+' :: HexDigit.chars ds) := by
  by_cases hnil : wordDigits text = []
  · have hempty : parse text = .error ⟨text, .empty⟩ := by simp [parse, hnil]
    rw [hempty, hnil]
    simp [HexDigit.chars, eq_comm]
  · have hread : parse text = .ok w ↔ signedHexValue (wordDigits text) = .ok w.toNat := by
      have hfits : ∀ n, signedHexValue (wordDigits text) = .ok n → n < UInt32.size := by
        intro n hn
        obtain ⟨_, _, _, hlt, _⟩ := (HexDigit.signedHexValue_eq_ok_iff hnil).mp hn
        exact hlt
      simp only [parse, List.isEmpty_iff, hnil, if_false]
      cases hvalue : signedHexValue (wordDigits text) with
      | error fault => simp
      | ok n =>
        rw [Except.ok.injEq, Except.ok.injEq, ← UInt32.toNat_inj,
          UInt32.toNat_ofNat_of_lt' (hfits n hvalue)]
    rw [hread, HexDigit.signedHexValue_eq_ok_iff hnil]
    constructor
    · rintro ⟨ds, hsome, hn, -, hleft⟩
      exact ⟨ds, hsome, hn, hleft⟩
    · rintro ⟨ds, hsome, hn, hleft⟩
      exact ⟨ds, hsome, hn, w.toNat_lt, hleft⟩

theorem parse_chars_iff {t : WordText} :
    parse (String.ofList t.chars) = .ok w ↔ t.number = w.toNat := by
  rw [parse_eq_ok_iff, t.wordDigits_chars]
  constructor
  · rintro ⟨ds, -, hn, hleft⟩
    have hplus := HexDigit.not_mem_chars (by decide : isHexDigit '+' = false)
    have hdigits : HexDigit.chars t.digits.reduceOption = HexDigit.chars ds := by
      cases hsign : t.sign with
      | none =>
        simp only [hsign, Option.isSome_none, Bool.false_eq_true, if_false, List.nil_append] at hleft
        rcases hleft with hplain | hsigned
        · exact hplain
        · exact absurd (hsigned ▸ List.mem_cons_self) (hplus t.digits.reduceOption)
      | some k =>
        simp only [hsign, Option.isSome_some, if_true, List.cons_append, List.nil_append] at hleft
        rcases hleft with hplain | hsigned
        · exact absurd (hplain ▸ List.mem_cons_self) (hplus ds)
        · exact (List.cons.inj hsigned).2
    rw [WordText.number, HexDigit.number_of_chars hdigits, hn]
  · intro hn
    refine ⟨t.digits.reduceOption, t.some_digit, hn, ?_⟩
    cases t.sign with
    | none => exact .inl rfl
    | some k => exact .inr rfl

/-- The hexadecimal text of a word, as a spelling of its number. -/
def hexSpelling (w : Word) : WordText where
  before := []
  mark := .lower
  sign := none
  digits := (HexDigit.ofNumber 8 w.toNat).map some
  after := []
  blank_before := by simp
  blank_after := by simp
  some_digit := by
    rw [SpacedDigits.reduceOption_map_some, ← List.length_pos_iff, HexDigit.length_ofNumber]
    decide

theorem chars_hexSpelling (w : Word) : w.hex = String.ofList w.hexSpelling.chars := by
  rw [← String.toList_inj, toList_hex, String.toList_ofList]
  simp [hexSpelling, WordText.chars, WordText.content, WordText.signChars, RadixMark.chars,
    SpacedDigits.chars, HexDigit.chars]

theorem number_hexSpelling (w : Word) : w.hexSpelling.number = w.toNat := by
  rw [WordText.number, hexSpelling, SpacedDigits.reduceOption_map_some,
    HexDigit.number_ofNumber (k := 8) w.toNat_lt]

/-- It is digits alone that a word is read from, unless a sign is left before them. -/
theorem parse_plain_iff (text : String) (w : Word) :
    (parse text = .ok w ↔
      ∃ ds, ds ≠ [] ∧ wordDigits text = HexDigit.chars ds ∧ HexDigit.number ds = w.toNat) ↔
    ¬ ∃ ds, ds ≠ [] ∧ wordDigits text = '+' :: HexDigit.chars ds ∧
      HexDigit.number ds = w.toNat := by
  rw [parse_eq_ok_iff]
  constructor
  · rintro hplain ⟨ds, hsome, hsigned, hn⟩
    obtain ⟨ds', -, hdigits, -⟩ := hplain.mp ⟨ds, hsome, hn, .inr hsigned⟩
    have hplus : '+' ∈ HexDigit.chars ds' := by
      rw [← hdigits, hsigned]
      exact List.mem_cons_self
    exact HexDigit.not_mem_chars (by decide) ds' hplus
  · intro hunsigned
    constructor
    · rintro ⟨ds, hsome, hn, hplain | hsigned⟩
      · exact ⟨ds, hsome, hplain, hn⟩
      · exact absurd ⟨ds, hsome, hsigned, hn⟩ hunsigned
    · rintro ⟨ds, hsome, hplain, hn⟩
      exact ⟨ds, hsome, hn, .inl hplain⟩

/-- A text is a word if, once it is trimmed and without its radix mark and its underscores, it
consists of at least one digit, or of a plus sign and at least one digit, and their number has at
most 32 bits; but for the sign it is digits alone that are read. So a word is read from every text
that spells it, with blanks around it, with zeros before it, and with underscores among its digits,
and from no other text; one of them is its hexadecimal text. -/
theorem parse_reads_digits (text : String) (w : Word) :
    (parse text = .ok w ↔ ∃ ds, ds ≠ [] ∧ HexDigit.number ds = w.toNat ∧
      (wordDigits text = HexDigit.chars ds ∨ wordDigits text = '+' :: HexDigit.chars ds)) ∧
    ((parse text = .ok w ↔
        ∃ ds, ds ≠ [] ∧ wordDigits text = HexDigit.chars ds ∧ HexDigit.number ds = w.toNat) ↔
      ¬ ∃ ds, ds ≠ [] ∧ wordDigits text = '+' :: HexDigit.chars ds ∧
        HexDigit.number ds = w.toNat) ∧
    (parse text = .ok w ↔ ∃ t : WordText, text.toList = t.chars ∧ t.number = w.toNat) ∧
    parse w.hex = .ok w := by
  refine ⟨parse_eq_ok_iff, parse_plain_iff text w, ?_, ?_⟩
  · constructor
    · intro h
      obtain ⟨ds, hsome, hn, hplain | hsigned⟩ := parse_eq_ok_iff.mp h
      · obtain ⟨t, -, ht, hnumber⟩ := WordText.exists_unsigned hsome hplain
        exact ⟨t, ht, hnumber.trans hn⟩
      · obtain ⟨t, -, ht, hnumber⟩ := WordText.exists_signed hsome hsigned
        exact ⟨t, ht, hnumber.trans hn⟩
    · rintro ⟨t, ht, hn⟩
      rw [← String.ofList_toList (s := text), ht]
      exact parse_chars_iff.mpr hn
  · rw [chars_hexSpelling]
    exact parse_chars_iff.mpr w.number_hexSpelling

theorem signed_digits_read : ¬ ∀ text w, parse text = .ok w ↔
    ∃ ds, ds ≠ [] ∧ wordDigits text = HexDigit.chars ds ∧ HexDigit.number ds = w.toNat := by
  intro h
  have hread : parse "+10" = .ok 0x10 := by decide
  obtain ⟨ds, -, hdigits, -⟩ := (h "+10" 0x10).mp hread
  have hplus : '+' ∈ HexDigit.chars ds := by
    rw [← hdigits]
    decide
  exact HexDigit.not_mem_chars (by decide) ds hplus

end Word

end BusBench

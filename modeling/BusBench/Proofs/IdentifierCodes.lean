import BusBench.Proofs.CheckedWords
import BusBench.Proofs.VcdLines

namespace BusBench

namespace Vcd

/-- The character of a digit. -/
def digit (d : Nat) : Char := Char.ofNat (33 + d)

/-- The number that a code stands for, the lowest digit first. The digits count from 1 to 94: as
none of them counts nothing, no two codes stand for the same number. -/
def ordinal : List Char → Nat
  | [] => 0
  | c :: cs => (c.toNat - 32) + 94 * ordinal cs

section

variable {d n : Nat} {c : Char} {cs : List Char}

theorem toNat_digit (h : d < 94) : (digit d).toNat = 33 + d := by
  have hvalid : (33 + d).isValidChar := Or.inl (by omega)
  rw [digit, Char.ofNat, dif_pos hvalid]
  rfl

theorem exists_digit_iff : (∃ d < 94, digit d = c) ↔ '!' ≤ c ∧ c ≤ '~' := by
  have hrange : '!' ≤ c ∧ c ≤ '~' ↔ 33 ≤ c.toNat ∧ c.toNat ≤ 126 := by
    simp only [Char.le_def, UInt32.le_iff_toNat_le]
    rfl
  rw [hrange]
  constructor
  · rintro ⟨d, hd, rfl⟩
    have hd' := toNat_digit hd
    omega
  · rintro ⟨hlow, hhigh⟩
    refine ⟨c.toNat - 33, by omega, ?_⟩
    rw [digit, Nat.add_sub_cancel' hlow, Char.ofNat_toNat]

theorem codeChars_of_lt (h : n < 94) : codeChars n = [digit n] :=
  String.ofList_inj.mp (code_of_lt h)

theorem codeChars_of_le (h : 94 ≤ n) : codeChars n = digit (n % 94) :: codeChars (n / 94 - 1) := by
  rw [codeChars, if_neg (Nat.not_lt.mpr h)]
  rfl

/-- A code with a digit in front of it is a code again. -/
theorem codeChars_digit (h : d < 94) (n : Nat) :
    codeChars (d + 94 * (n + 1)) = digit d :: codeChars n := by
  have hlow : (d + 94 * (n + 1)) % 94 = d := by omega
  have hrest : (d + 94 * (n + 1)) / 94 - 1 = n := by omega
  rw [codeChars_of_le (by omega), hlow, hrest]

example : codeChars 94 = ['!', '!'] ∧ codeChars 187 = ['~', '!'] := by decide +kernel

theorem codeChars_ne_nil (n : Nat) : codeChars n ≠ [] := by
  rcases Nat.lt_or_ge n 94 with h | h
  · rw [codeChars_of_lt h]
    exact List.cons_ne_nil _ _
  · rw [codeChars_of_le h]
    exact List.cons_ne_nil _ _

theorem exists_digit_of_mem_codeChars : ∀ c ∈ codeChars n, ∃ d < 94, digit d = c := by
  induction n using codeChars.induct with
  | case1 n h =>
    rw [codeChars_of_lt h]
    exact List.forall_mem_singleton.mpr ⟨n, h, rfl⟩
  | case2 n h ih =>
    rw [codeChars_of_le (Nat.not_lt.mp h)]
    exact List.forall_mem_cons.mpr ⟨⟨n % 94, Nat.mod_lt n (by decide), rfl⟩, ih⟩

theorem ordinal_codeChars (n : Nat) : ordinal (codeChars n) = n + 1 := by
  induction n using codeChars.induct with
  | case1 n h =>
    rw [codeChars_of_lt h, ordinal, ordinal, toNat_digit h]
    omega
  | case2 n h ih =>
    have hlow : n % 94 < 94 := Nat.mod_lt n (by decide)
    rw [codeChars_of_le (Nat.not_lt.mp h), ordinal, ih, toNat_digit hlow]
    omega

theorem codeChars_injective : Function.Injective codeChars := by
  intro m n h
  have hordinal := congrArg ordinal h
  rw [ordinal_codeChars, ordinal_codeChars] at hordinal
  exact Nat.succ.inj hordinal

theorem exists_codeChars (hne : cs ≠ []) (hcs : ∀ c ∈ cs, ∃ d < 94, digit d = c) :
    ∃ n, codeChars n = cs := by
  induction cs with
  | nil => exact absurd rfl hne
  | cons c cs ih =>
    obtain ⟨⟨d, hd, rfl⟩, hrest⟩ := List.forall_mem_cons.mp hcs
    by_cases hlast : cs = []
    · subst hlast
      exact ⟨d, codeChars_of_lt hd⟩
    · obtain ⟨n, rfl⟩ := ih hlast hrest
      exact ⟨d + 94 * (n + 1), codeChars_digit hd n⟩

end

/-- The character of the lowest digit of a number, computed on 64 bits and a byte. -/
def checkedDigit (n : UInt64) : Option Char := do
  let low ← Checked.remainder n 94
  let byte ← Checked.byteSum 33 low.toUInt8
  return Char.ofUInt8 byte

/-- The number that is left after its lowest digit, if any is, computed on 64 bits. -/
def checkedRest (n : UInt64) : Option (Option UInt64) := do
  let rest ← Checked.quotient n 94
  if rest = 0 then return none
  let next ← Checked.difference rest 1
  return some next

/-- Pass after pass over a number, each of which appends a character to what is written, comes to
an end with this text. -/
inductive Writes : String → UInt64 → String → Prop
  | last {written : String} {n : UInt64} {c : Char} (hdigit : checkedDigit n = some c)
      (hrest : checkedRest n = some none) : Writes written n (written.push c)
  | next {written text : String} {n rest : UInt64} {c : Char} (hdigit : checkedDigit n = some c)
      (hrest : checkedRest n = some (some rest)) (hwrites : Writes (written.push c) rest text) :
      Writes written n text

section

variable {written text : String} {n : UInt64}

theorem checkedDigit_eq (n : UInt64) : checkedDigit n = some (digit (n.toNat % 94)) := by
  obtain ⟨low, hlow, hmod⟩ := Checked.remainder_computes (a := n) (b := 94) (by decide)
  have hlown : low.toNat = n.toNat % 94 := hmod
  have hlt : low.toNat < 94 := hlown ▸ Nat.mod_lt _ (by decide)
  have hlowb : low.toUInt8.toNat = low.toNat := by
    rw [UInt64.toNat_toUInt8]
    exact Nat.mod_eq_of_lt (by omega)
  have hfits : (33 : UInt8).toNat + low.toUInt8.toNat < UInt8.size := by
    rw [hlowb]
    exact Nat.lt_of_lt_of_le (Nat.add_lt_add_left hlt _) (by decide)
  obtain ⟨byte, hbyte, hbyten⟩ := Checked.byteSum_computes hfits
  have hchar : Char.ofUInt8 byte = digit (n.toNat % 94) := by
    rw [← Char.ofNat_toNat (Char.ofUInt8 byte), digit, ← hlown, ← hlowb]
    exact congrArg Char.ofNat hbyten
  simp only [checkedDigit, hlow, hbyte, hchar, Option.bind_eq_bind, Option.bind_some,
    Option.pure_def]

theorem checkedRest_of_lt (h : n.toNat < 94) : checkedRest n = some none := by
  obtain ⟨rest, hrest, hrestn⟩ := Checked.quotient_computes (a := n) (b := 94) (by decide)
  have hzero : rest = 0 := by
    apply UInt64.toNat_inj.mp
    rw [hrestn]
    exact Nat.div_eq_of_lt h
  simp [checkedRest, hrest, hzero]

theorem checkedRest_of_le (h : 94 ≤ n.toNat) :
    ∃ next, checkedRest n = some (some next) ∧ next.toNat = n.toNat / 94 - 1 := by
  obtain ⟨rest, hrest, hrestn⟩ := Checked.quotient_computes (a := n) (b := 94) (by decide)
  have hpos : 0 < rest.toNat := by
    rw [hrestn]
    exact Nat.div_pos h (by decide)
  have hne : rest ≠ 0 := by
    rintro rfl
    exact absurd hpos (by decide)
  obtain ⟨next, hnext, hnextn⟩ := Checked.difference_computes (a := rest) (b := 1) hpos
  refine ⟨next, by simp [checkedRest, hrest, hne, hnext], ?_⟩
  rw [hnextn, hrestn]
  rfl

theorem push_code_of_lt (h : n.toNat < 94) :
    written.push (digit (n.toNat % 94)) = written ++ code n.toNat := by
  apply String.toList_inj.mp
  rw [String.toList_push, String.toList_append, code, String.toList_ofList, codeChars_of_lt h,
    Nat.mod_eq_of_lt h]

theorem push_code_of_le (h : 94 ≤ n.toNat) :
    written.push (digit (n.toNat % 94)) ++ code (n.toNat / 94 - 1) = written ++ code n.toNat := by
  apply String.toList_inj.mp
  simp only [String.toList_append, String.toList_push, code, String.toList_ofList,
    codeChars_of_le h, List.append_assoc, List.singleton_append]

theorem Writes.eq_append_code (h : Writes written n text) : text = written ++ code n.toNat := by
  induction h with
  | @last written n c hdigit hrest =>
    rcases Nat.lt_or_ge n.toNat 94 with hn | hn
    · cases (checkedDigit_eq n).symm.trans hdigit
      exact push_code_of_lt hn
    · obtain ⟨next, hnext, _⟩ := checkedRest_of_le hn
      cases hnext.symm.trans hrest
  | @next written text n rest c hdigit hrest _ ih =>
    rcases Nat.lt_or_ge n.toNat 94 with hn | hn
    · cases (checkedRest_of_lt hn).symm.trans hrest
    · obtain ⟨next, hnext, hnextn⟩ := checkedRest_of_le hn
      cases hnext.symm.trans hrest
      cases (checkedDigit_eq n).symm.trans hdigit
      rw [ih, hnextn]
      exact push_code_of_le hn

/-- The passes over a number end, and none of them fails. -/
theorem writes_code (written : String) (n : UInt64) :
    Writes written n (written ++ code n.toNat) := by
  -- what is left after a pass is smaller, so the induction is on the number
  induction hn : n.toNat using codeChars.induct generalizing written n with
  | case1 m h =>
    subst hn
    rw [← push_code_of_lt h]
    exact .last (checkedDigit_eq n) (checkedRest_of_lt h)
  | case2 m h ih =>
    subst hn
    obtain ⟨next, hnext, hnextn⟩ := checkedRest_of_le (Nat.not_lt.mp h)
    have hrest := ih (written.push (digit (n.toNat % 94))) next hnextn
    rw [push_code_of_le (Nat.not_lt.mp h)] at hrest
    exact .next (checkedDigit_eq n) hnext hrest

end

/-- For every index of 64 bits the passes over it end and write its code. A code is never empty and
holds characters from `!` to `~` only, two indices never share one, and every text of such
characters that is not empty is the code of an index. -/
theorem codes_tell_indices_apart :
    (∀ (n : UInt64) (text : String), Writes "" n text ↔ text = code n.toNat) ∧
      (∀ n, code n ≠ "" ∧ ∀ c ∈ (code n).toList, '!' ≤ c ∧ c ≤ '~') ∧
      (∀ m n, m ≠ n → code m ≠ code n) ∧
      ∀ text : String, text ≠ "" → (∀ c ∈ text.toList, '!' ≤ c ∧ c ≤ '~') → ∃ n, code n = text := by
  refine ⟨?_, ?_, ?_, ?_⟩
  · intro n text
    rw [← String.empty_append (s := code n.toNat)]
    exact ⟨Writes.eq_append_code, fun h => h ▸ writes_code "" n⟩
  · intro n
    refine ⟨fun h => codeChars_ne_nil n (String.ofList_eq_empty_iff.mp h), ?_⟩
    intro c hc
    rw [code, String.toList_ofList] at hc
    exact exists_digit_iff.mp (exists_digit_of_mem_codeChars c hc)
  · intro m n hne h
    exact hne (codeChars_injective (String.ofList_inj.mp h))
  · intro text hne htext
    have hdigits : ∀ c ∈ text.toList, ∃ d < 94, digit d = c :=
      fun c hc => exists_digit_iff.mpr (htext c hc)
    obtain ⟨n, hn⟩ := exists_codeChars (mt String.toList_eq_nil_iff.mp hne) hdigits
    exact ⟨n, by rw [code, hn, String.ofList_toList]⟩

end Vcd

end BusBench

import BusBench.HexText
import Mathlib.Data.Nat.Digits.Defs

namespace BusBench

/-- A hexadecimal digit in one of its two cases. -/
structure HexDigit where
  value : Fin 16
  upper : Bool

namespace HexDigit

def char (d : HexDigit) : Char :=
  if d.upper then d.value.val.digitChar.toUpper else d.value.val.digitChar

def chars (ds : List HexDigit) : List Char := ds.map char

/-- The number that digits write. -/
def number (ds : List HexDigit) : Nat := Nat.ofDigits 16 (ds.map (·.value.val)).reverse

theorem hexDigit?_char (d : HexDigit) : hexDigit? d.char = some d.value.val := by
  obtain ⟨v, u⟩ := d
  have hall : ∀ v : Fin 16, ∀ u : Bool, hexDigit? (char ⟨v, u⟩) = some v.val := by decide
  exact hall v u

theorem isBlank_char (d : HexDigit) : isBlank d.char = false := by
  obtain ⟨v, u⟩ := d
  have hall : ∀ v : Fin 16, ∀ u : Bool, isBlank (char ⟨v, u⟩) = false := by decide
  exact hall v u

theorem toNat_lt_of_isHexDigit {c : Char} (h : isHexDigit c = true) : c.toNat < 103 := by
  have hle : ∀ d : Char, d.toNat < 103 → c.val ≤ d.val → c.toNat < 103 := by
    intro d hd hc
    exact (UInt32.le_iff_toNat_le.mp hc).trans_lt hd
  unfold isHexDigit hexDigit? at h
  split at h
  next hc => exact hle '9' (by decide) hc.2
  next =>
    split at h
    next hc => exact hle 'f' (by decide) hc.2
    next =>
      split at h
      next hc => exact hle 'F' (by decide) hc.2
      next => cases h

theorem exists_char {c : Char} (h : isHexDigit c = true) : ∃ d : HexDigit, d.char = c := by
  -- the codes of digits are small, so that looking at all of them is enough
  have hall : ∀ n < 103, isHexDigit (Char.ofNat n) = true →
      ∃ v : Fin 16, ∃ u : Bool, char ⟨v, u⟩ = Char.ofNat n := by decide +kernel
  have hc := hall c.toNat (toNat_lt_of_isHexDigit h)
  rw [Char.ofNat_toNat] at hc
  obtain ⟨v, u, hchar⟩ := hc h
  exact ⟨⟨v, u⟩, hchar⟩

theorem all_isHexDigit_iff {cs : List Char} :
    cs.all isHexDigit = true ↔ ∃ ds, chars ds = cs := by
  constructor
  · intro h
    induction cs with
    | nil => exact ⟨[], rfl⟩
    | cons c cs ih =>
      rw [List.all_cons, Bool.and_eq_true] at h
      obtain ⟨d, rfl⟩ := exists_char h.1
      obtain ⟨ds, rfl⟩ := ih h.2
      exact ⟨d :: ds, rfl⟩
  · rintro ⟨ds, rfl⟩
    rw [List.all_eq_true]
    intro c hc
    obtain ⟨d, -, rfl⟩ := List.mem_map.mp hc
    rw [isHexDigit, hexDigit?_char]
    rfl

theorem not_mem_chars {c : Char} (h : isHexDigit c = false) (ds : List HexDigit) :
    c ∉ chars ds := by
  intro hmem
  have hdigit := List.all_eq_true.mp (all_isHexDigit_iff.mpr ⟨ds, rfl⟩) c hmem
  rw [h] at hdigit
  cases hdigit

/-- Digits of either case write one number. -/
theorem number_of_chars {ds es : List HexDigit} (h : chars ds = chars es) :
    number ds = number es := by
  have hvalues (ds : List HexDigit) :
      (chars ds).map hexDigit? = (ds.map (·.value.val)).map some := by
    rw [chars, List.map_map, List.map_map]
    exact List.map_congr_left fun d _ => hexDigit?_char d
  have hsome : (ds.map (·.value.val)).map some = (es.map (·.value.val)).map some := by
    rw [← hvalues, ← hvalues, h]
  rw [number, number, (List.map_inj_right fun _ _ => Option.some.inj).mp hsome]

theorem number_cons (d : HexDigit) (ds : List HexDigit) :
    number (d :: ds) = d.value.val * 16 ^ ds.length + number ds := by
  rw [number, List.map_cons, Nat.ofDigits_reverse_cons, List.length_map, number]
  ring

theorem number_lt (ds : List HexDigit) : number ds < 16 ^ ds.length := by
  have h := Nat.ofDigits_lt_base_pow_length (b := 16) (l := (ds.map (·.value.val)).reverse)
    (by decide) (by
      intro n hn
      obtain ⟨d, -, rfl⟩ := List.mem_map.mp (List.mem_reverse.mp hn)
      exact d.value.isLt)
  simpa only [number, List.length_reverse, List.length_map] using h

theorem number_lt_size {ds : List HexDigit} (h : ds.length ≤ 8) : number ds < UInt32.size :=
  (number_lt ds).trans_le (Nat.pow_le_pow_right (by decide) h)

/-- Digits whose number fits a word are read to their end. -/
theorem hexValue_chars {acc : Nat} {ds : List HexDigit}
    (h : acc * 16 ^ ds.length + number ds < UInt32.size) :
    hexValue acc (chars ds) = .ok (acc * 16 ^ ds.length + number ds) := by
  induction ds generalizing acc with
  | nil => simp [chars, hexValue, number]
  | cons d ds ih =>
    have hsum : acc * 16 ^ (ds.length + 1) + number (d :: ds) =
        (16 * acc + d.value.val) * 16 ^ ds.length + number ds := by
      rw [number_cons]
      ring
    rw [List.length_cons, hsum] at h ⊢
    have hfits : 16 * acc + d.value.val < UInt32.size :=
      calc 16 * acc + d.value.val ≤ (16 * acc + d.value.val) * 16 ^ ds.length :=
            Nat.le_mul_of_pos_right _ (Nat.pow_pos (by decide))
        _ < UInt32.size := by omega
    have hfirst : hexValue acc (chars (d :: ds)) =
        hexValue (16 * acc + d.value.val) (chars ds) := by
      rw [chars, List.map_cons, hexValue, hexDigit?_char]
      exact if_pos hfits
    rw [hfirst, ih h]

theorem signedHexValue_chars {ds : List HexDigit} (h : number ds < UInt32.size) :
    signedHexValue (chars ds) = .ok (number ds) := by
  have hread : hexValue 0 (chars ds) = .ok (0 * 16 ^ ds.length + number ds) :=
    hexValue_chars (by simpa using h)
  rw [Nat.zero_mul, Nat.zero_add] at hread
  rw [← hread]
  cases ds with
  | nil => rfl
  | cons d ds =>
    have hsign : d.char ≠ '+' := by
      intro hd
      have hread := hexDigit?_char d
      rw [hd] at hread
      cases hread
    simp only [chars, List.map_cons, signedHexValue]
    split <;> simp_all

/-- Reading up to eight digits cannot fail. -/
theorem exists_signedHexValue {cs : List Char} (h : cs.all isHexDigit = true)
    (height : cs.length ≤ 8) : ∃ n, signedHexValue cs = .ok n := by
  obtain ⟨ds, rfl⟩ := all_isHexDigit_iff.mp h
  rw [chars, List.length_map] at height
  exact ⟨_, signedHexValue_chars (number_lt_size height)⟩

/-- The last `k` digits of a number. -/
def ofNumber : Nat → Nat → List HexDigit
  | 0, _ => []
  | k + 1, n => ofNumber k (n / 16) ++ [⟨Fin.ofNat 16 n, false⟩]

theorem length_ofNumber (k n : Nat) : (ofNumber k n).length = k := by
  induction k generalizing n with
  | zero => rfl
  | succ k ih => rw [ofNumber, List.length_append, ih, List.length_singleton]

theorem number_concat (ds : List HexDigit) (d : HexDigit) :
    number (ds ++ [d]) = 16 * number ds + d.value.val := by
  simp only [number, List.map_append, List.map_cons, List.map_nil, List.reverse_append,
    List.reverse_cons, List.reverse_nil, List.nil_append, List.cons_append, Nat.ofDigits_cons]
  exact Nat.add_comm _ _

theorem number_ofNumber {k n : Nat} (h : n < 16 ^ k) : number (ofNumber k n) = n := by
  induction k generalizing n with
  | zero =>
    obtain rfl : n = 0 := by simpa using h
    rfl
  | succ k ih =>
    have hrest : n / 16 < 16 ^ k := Nat.div_lt_of_lt_mul (by rwa [Nat.pow_succ'] at h)
    rw [ofNumber, number_concat, ih hrest, Fin.val_ofNat]
    exact Nat.div_add_mod n 16

end HexDigit

end BusBench

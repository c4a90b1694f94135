import BusBench.JsonReader
import BusBench.JsonText
import Mathlib.Data.List.TakeDrop
import Mathlib.Tactic.IntervalCases

namespace BusBench

namespace Json

section

variable {c : Char} {cs rest : List Char} {n : Nat}

/-- The digits of a numbered escape. -/
def fourDigits (n : Nat) : List Char :=
  List.replicate (4 - (Nat.toDigits 16 n).length) '0' ++ Nat.toDigits 16 n

theorem numbered?_fourDigits (h : c.toNat < 0x20) (rest : List Char) :
    numbered? (fourDigits c.toNat ++ rest) = some (c, rest) := by
  -- there are few control characters, so that looking at all of them is enough
  have hall : ∀ n < 0x20, ∃ x y z w, fourDigits n = [x, y, z, w] ∧
      ∃ ds, [x, y, z, w].mapM hexDigit? = some ds ∧ ds.foldl (16 * · + ·) 0 = n := by
    intro n hn
    interval_cases n <;> exact ⟨_, _, _, _, rfl, _, rfl, rfl⟩
  obtain ⟨x, y, z, w, hdigits, ds, hds, hn⟩ := hall c.toNat h
  have hunit : unit? (fourDigits c.toNat ++ rest) = some (c.toNat, rest) := by
    rw [hdigits]
    simp only [List.cons_append, List.nil_append, unit?, hds, Option.bind_eq_bind,
      Option.bind_some, hn]
  have hlow : ¬ (0xd800 ≤ c.toNat ∧ c.toNat < 0xdc00) := by omega
  have hhigh : ¬ (0xdc00 ≤ c.toNat ∧ c.toNat < 0xe000) := by omega
  simp only [numbered?, hunit, Option.bind_eq_bind, Option.bind_some, if_neg hlow, if_neg hhigh,
    Char.ofNat_toNat]

/-- A character stands for itself in a string or as an escape that is read as it. -/
theorem escaped_cases (c : Char) :
    (escaped c = [c] ∧ c ≠ '\x22' ∧ c ≠ '\x5c' ∧ ¬ c.toNat < 0x20) ∨
      ∃ name, escaped c = '\x5c' :: name ∧ ∀ rest, escape? (name ++ rest) = some (c, rest) := by
  by_cases hquote : c = '\x22'
  · subst hquote
    exact .inr ⟨['\x22'], rfl, fun _ => rfl⟩
  by_cases hslash : c = '\x5c'
  · subst hslash
    exact .inr ⟨['\x5c'], rfl, fun _ => rfl⟩
  by_cases hn : c = '\n'
  · subst hn
    exact .inr ⟨['n'], rfl, fun _ => rfl⟩
  by_cases hr : c = '\r'
  · subst hr
    exact .inr ⟨['r'], rfl, fun _ => rfl⟩
  by_cases ht : c = '\t'
  · subst ht
    exact .inr ⟨['t'], rfl, fun _ => rfl⟩
  by_cases hb : c = '\x08'
  · subst hb
    exact .inr ⟨['b'], rfl, fun _ => rfl⟩
  by_cases hf : c = '\x0c'
  · subst hf
    exact .inr ⟨['f'], rfl, fun _ => rfl⟩
  by_cases hcontrol : c.toNat < 0x20
  · refine .inr ⟨'u' :: fourDigits c.toNat, ?_, fun rest => ?_⟩
    · simp [escaped, fourDigits, hquote, hslash, hn, hr, ht, hb, hf, hcontrol]
    · exact numbered?_fourDigits hcontrol rest
  · exact .inl ⟨by simp [escaped, hquote, hslash, hn, hr, ht, hb, hf, hcontrol], hquote, hslash,
      hcontrol⟩

theorem stringRest_escaped (fuel : Nat) (acc : List Char) (c : Char) (rest : List Char) :
    stringRest (fuel + 1) acc (escaped c ++ rest) = stringRest fuel (c :: acc) rest := by
  rcases escaped_cases c with ⟨hc, hquote, hslash, hcontrol⟩ | ⟨name, hc, hread⟩
  · rw [hc, List.cons_append, List.nil_append, stringRest]
    · rw [if_neg hcontrol]
    · exact hquote
    · exact hslash
  · rw [hc, List.cons_append, stringRest, hread]
    rfl

theorem stringRest_escapes {fuel : Nat} (acc : List Char) (h : cs.length < fuel)
    (rest : List Char) :
    stringRest fuel acc (cs.flatMap escaped ++ '\x22' :: rest) =
      some (String.ofList (acc.reverse ++ cs), rest) := by
  induction cs generalizing fuel acc with
  | nil =>
    obtain ⟨fuel, rfl⟩ := Nat.exists_eq_add_one.mpr (Nat.zero_lt_of_lt h)
    simp [stringRest]
  | cons c cs ih =>
    obtain ⟨fuel, rfl⟩ := Nat.exists_eq_add_one.mpr (Nat.zero_lt_of_lt h)
    rw [List.flatMap_cons, List.append_assoc, stringRest_escaped,
      ih (c :: acc) (Nat.lt_of_succ_lt_succ h), List.reverse_cons, List.append_assoc]
    rfl

theorem toList_string (s : String) :
    (string s).toList = '\x22' :: (s.toList.flatMap escaped ++ ['\x22']) := by
  simp [string]

theorem length_le_escapes (cs : List Char) : cs.length ≤ (cs.flatMap escaped).length := by
  induction cs with
  | nil => exact Nat.le_refl 0
  | cons c cs ih =>
    have hc : 0 < (escaped c).length := by
      rcases escaped_cases c with ⟨hc, -⟩ | ⟨name, hc, -⟩ <;> simp [hc]
    rw [List.flatMap_cons, List.length_append, List.length_cons]
    omega

/-- A written string is read back. -/
theorem stringRest_string (s : String) (rest : List Char) :
    ∃ cs, (string s).toList ++ rest = '\x22' :: cs ∧
      stringRest (cs.length + 1) [] cs = some (s, rest) := by
  refine ⟨s.toList.flatMap escaped ++ '\x22' :: rest, ?_, ?_⟩
  · rw [toList_string]
    simp
  · rw [stringRest_escapes [] _ rest, List.reverse_nil, List.nil_append, String.ofList_toList]
    have hlength := length_le_escapes s.toList
    rw [List.length_append, List.length_cons]
    omega

/-- A text that no number goes on with. -/
def Closes (rest : List Char) : Prop := ∀ c ∈ rest.head?, c = ',' ∨ c = ']' ∨ c = '\x7d'

theorem digits_append {ds : List Char} (hds : ∀ c ∈ ds, c.isDigit = true)
    (hrest : ∀ c ∈ rest.head?, c.isDigit = false) : digits (ds ++ rest) = (ds, rest) := by
  have hstop : rest.takeWhile Char.isDigit = [] ∧ rest.dropWhile Char.isDigit = rest := by
    cases rest with
    | nil => exact ⟨rfl, rfl⟩
    | cons c rest =>
      have hc : ¬ c.isDigit = true := by simp [hrest c rfl]
      exact ⟨List.takeWhile_cons_of_neg hc, List.dropWhile_cons_of_neg hc⟩
  rw [digits, List.span_eq_takeWhile_dropWhile, List.takeWhile_append_of_pos hds,
    List.dropWhile_append_of_pos hds, hstop.1, hstop.2, List.append_nil]

theorem le_ofDigitChars (ds : List Char) (n : Nat) : n ≤ Nat.ofDigitChars 10 ds n := by
  induction ds generalizing n with
  | nil => simp
  | cons d ds ih =>
    rw [Nat.ofDigitChars_cons]
    exact Nat.le_trans (by omega) (ih _)

theorem leading_of_lt {ds : List Char} (h : Nat.ofDigitChars 10 ds n < UInt64.size) :
    leading n ds = (Nat.ofDigitChars 10 ds n, []) := by
  induction ds generalizing n with
  | nil => simp [leading]
  | cons d ds ih =>
    rw [Nat.ofDigitChars_cons] at h ⊢
    have hfits := Nat.lt_of_le_of_lt (le_ofDigitChars ds _) h
    rw [leading, if_pos hfits, ih h]

/-- Only the number zero starts with a zero. -/
theorem head?_toDigits (h : 0 < n) : (Nat.toDigits 10 n).head? ≠ some '0' := by
  induction n using Nat.strongRecOn with
  | ind n ih =>
    rcases Nat.lt_or_ge n 10 with hlt | hge
    · rw [Nat.toDigits_of_lt_base hlt]
      interval_cases n <;> decide
    · obtain ⟨d, ds, hds⟩ :=
        List.exists_cons_of_ne_nil (Nat.toDigits_ne_nil (n := n / 10) (b := 10))
      have hrest := ih (n / 10) (by omega) (by omega)
      rw [Nat.toDigits_of_base_le (by decide) hge, hds]
      rwa [hds] at hrest

theorem toList_int (n : Int) :
    (toString n).toList = (if n < 0 then ['-'] else []) ++ Nat.toDigits 10 n.natAbs := by
  cases n with
  | ofNat n =>
    rw [Int.ofNat_eq_natCast, if_neg (Int.natCast_nonneg n).not_gt]
    exact Nat.toList_repr
  | negSucc n =>
    rw [if_pos (Int.negSucc_lt_zero n)]
    show ("-" ++ Nat.repr (n + 1)).toList = _
    simp

/-- The integers of 64 bits, of either kind. -/
def Fits (n : Int) : Prop := -0x8000000000000000 ≤ n ∧ n < UInt64.size

theorem ofNumber?_toDigits {n : Int} (h : Fits n) :
    ofNumber? (decide (n < 0)) (Nat.toDigits 10 n.natAbs) [] none = some (.int n) := by
  obtain ⟨low, high⟩ := h
  have hleading : leading 0 (Nat.toDigits 10 n.natAbs) = (n.natAbs, []) := by
    have hvalue : Nat.ofDigitChars 10 (Nat.toDigits 10 n.natAbs) 0 = n.natAbs :=
      Nat.ofDigitChars_ten_toDigits
    rw [leading_of_lt, hvalue]
    rw [hvalue]
    have hsize : UInt64.size = 0x10000000000000000 := rfl
    omega
  simp only [ofNumber?, hleading]
  by_cases hn : n < 0
  · have hlow : 0 < n.natAbs ∧ n.natAbs ≤ 0x8000000000000000 := by omega
    simp [hn, hlow, abs_of_neg hn]
  · have hvalue : (n.natAbs : Int) = n := by omega
    simp [hn, hvalue]

theorem toDigits_head (n : Nat) : ∃ c cs, Nat.toDigits 10 n = c :: cs ∧ c.isDigit = true := by
  obtain ⟨c, cs, hcs⟩ := List.exists_cons_of_ne_nil (Nat.toDigits_ne_nil (n := n) (b := 10))
  exact ⟨c, cs, hcs, Nat.isDigit_of_mem_toDigits (n := n) (b := 10) (by decide) (by decide)
    (hcs ▸ List.mem_cons_self)⟩

/-- A number starts with a sign or a digit. -/
theorem toList_int_head (n : Int) :
    ∃ c cs, (toString n).toList = c :: cs ∧ (c = '-' ∨ c.isDigit = true) := by
  obtain ⟨c, cs, hcs, hdigit⟩ := toDigits_head n.natAbs
  rw [toList_int, hcs]
  split
  · exact ⟨_, _, rfl, .inl rfl⟩
  · exact ⟨_, _, rfl, .inr hdigit⟩

theorem toDigits_wellFormed (n : Nat) : ¬ ((Nat.toDigits 10 n).isEmpty = true ∨
    (Nat.toDigits 10 n).length > 1 ∧ (Nat.toDigits 10 n).head? = some '0') := by
  rintro (hnil | ⟨hlong, hhead⟩)
  · simp at hnil
  · rcases Nat.eq_zero_or_pos n with rfl | hpos
    · simp at hlong
    · exact head?_toDigits hpos hhead

namespace Closes

theorem digits (h : Closes rest) (n : Nat) :
    digits (Nat.toDigits 10 n ++ rest) = (Nat.toDigits 10 n, rest) := by
  refine digits_append (fun c hc => Nat.isDigit_of_mem_toDigits (by decide) (by decide) hc) ?_
  intro c hc
  rcases h c hc with rfl | rfl | rfl <;> rfl

theorem fraction? (h : Closes rest) : fraction? rest = some ([], rest) := by
  cases rest with
  | nil => rfl
  | cons c rest => rcases h c rfl with rfl | rfl | rfl <;> rfl

theorem exponent? (h : Closes rest) : exponent? rest = some (none, rest) := by
  cases rest with
  | nil => rfl
  | cons c rest => rcases h c rfl with rfl | rfl | rfl <;> rfl

end Closes

/-- A written integer is read back. -/
theorem number?_int {n : Int} (h : Fits n) (hrest : Closes rest) :
    number? ((toString n).toList ++ rest) = some (.int n, rest) := by
  have hdigits := hrest.digits n.natAbs
  have hzero := toDigits_wellFormed n.natAbs
  have hnumber := ofNumber?_toDigits h
  have htext := toList_int n
  by_cases hn : n < 0
  · simp only [hn, decide_true] at hnumber
    rw [if_pos hn] at htext
    simp only [htext, number?, List.cons_append, List.nil_append, hdigits, if_neg hzero,
      hrest.fraction?, hrest.exponent?, hnumber, Option.bind_eq_bind, Option.bind_some]
  · simp only [hn, decide_false] at hnumber
    rw [if_neg hn, List.nil_append] at htext
    -- the first digit is no sign
    obtain ⟨c, cs, hcs, hdigit⟩ := toDigits_head n.natAbs
    have hsign : c ≠ '-' := by
      rintro rfl
      exact absurd hdigit (by decide)
    rw [hcs] at htext hdigits hzero hnumber
    rw [htext]
    rw [List.cons_append] at hdigits ⊢
    simp only [number?, List.cons.injEq, hsign, false_and, imp_self, implies_true, hdigits,
      if_neg hzero, hrest.fraction?, hrest.exponent?, hnumber, Option.bind_eq_bind,
      Option.bind_some]

/-- What `skip` leaves as it is. -/
def Solid (c : Char) : Prop := ¬ (c = ' ' ∨ c = '\n' ∨ c = '\r' ∨ c = '\t')

instance (c : Char) : Decidable (Solid c) := inferInstanceAs (Decidable (¬ _))

theorem skip_of_solid (h : Solid c) (cs : List Char) : skip (c :: cs) = c :: cs := by
  rw [skip, if_neg h]

/-- A document that starts with a sign or a digit is a number. -/
theorem document_of_number (h : c = '-' ∨ c.isDigit = true) (fuel : Nat) (cs : List Char) :
    document (fuel + 1) (c :: cs) = number? (c :: cs) := by
  have hother : ∀ b : Char, b ≠ '-' → b.isDigit = false → c ≠ b := by
    rintro b hsign hdigit rfl
    exact h.elim hsign (by simp [hdigit])
  have hsolid : Solid c := by
    rintro (rfl | rfl | rfl | rfl) <;> exact hother _ (by decide) (by decide) rfl
  rw [document, skip_of_solid hsolid]
  split
  case h_7 => rfl
  all_goals
    next heq => exact absurd (List.cons.inj heq).1 (hother _ (by decide) (by decide))

end

/-- A document whose text says all of it: there are no floats, and its integers fit 64 bits. -/
inductive Exact : Document → Prop where
  | null : Exact .null
  | bool (b : Bool) : Exact (.bool b)
  | int {n : Int} (fits : Fits n) : Exact (.int n)
  | text (s : String) : Exact (.text s)
  | list {ds : List Document} (items : ∀ d ∈ ds, Exact d) : Exact (.list ds)
  | table {es : List (String × Document)} (entries : ∀ e ∈ es, Exact e.2) : Exact (.table es)

mutual

/-- A document with the keys of each table in ascending order. -/
def ordered : Document → Document
  | .list ds => .list (orderedItems ds)
  | .table es => .table (orderedEntries [] es)
  | d => d

def orderedItems : List Document → List Document
  | [] => []
  | d :: ds => ordered d :: orderedItems ds

/-- Puts entries where their keys belong. -/
def orderedEntries (acc : List (String × Document)) :
    List (String × Document) → List (String × Document)
  | [] => acc
  | (k, d) :: es => orderedEntries (putEntry k (ordered d) acc) es

end

section

variable {d : Document} {ds : List Document} {es : List (String × Document)} {rest : List Char}
  {fuel : Nat}

theorem orderedItems_eq_map (ds : List Document) : orderedItems ds = ds.map ordered := by
  induction ds with
  | nil => rfl
  | cons d ds ih => rw [orderedItems, ih, List.map_cons]

/-- The text of a document is read back whatever follows that closes it. -/
def ReadsBack (d : Document) : Prop :=
  ∀ fuel rest, (compact d).length ≤ fuel → Closes rest →
    document fuel ((compact d).toList ++ rest) = some (ordered d, rest)

theorem readsBack_int {n : Int} (h : Fits n) : ReadsBack (.int n) := by
  intro fuel rest hfuel hrest
  obtain ⟨c, cs, hcs, hc⟩ := toList_int_head n
  have hread := number?_int h hrest
  simp only [compact, ← String.length_toList, hcs, List.length_cons] at hfuel
  obtain ⟨fuel, rfl⟩ := Nat.exists_eq_add_one.mpr (Nat.zero_lt_of_lt hfuel)
  rw [hcs] at hread
  simp only [compact, hcs]
  rw [List.cons_append] at hread ⊢
  rw [document_of_number hc, hread]
  rfl

theorem readsBack_text (s : String) : ReadsBack (.text s) := by
  intro fuel rest hfuel hrest
  obtain ⟨cs, hcs, hread⟩ := stringRest_string s rest
  simp only [compact, ← String.length_toList, toList_string, List.length_cons] at hfuel
  obtain ⟨fuel, rfl⟩ := Nat.exists_eq_add_one.mpr (Nat.zero_lt_of_lt hfuel)
  rw [compact, hcs, document, skip_of_solid (by simp [Solid])]
  simp only [hread, Option.map_some]
  rfl

/-- The text of a document starts with neither a blank nor a bracket that closes. -/
theorem compact_head (h : Exact d) :
    ∃ c cs, (compact d).toList = c :: cs ∧ Solid c ∧ c ≠ ']' := by
  cases h with
  | null => exact ⟨'n', _, rfl, by decide, by decide⟩
  | bool b => cases b <;> exact ⟨_, _, rfl, by decide, by decide⟩
  | @int n fits =>
    obtain ⟨c, cs, hcs, hc⟩ := toList_int_head n
    refine ⟨c, cs, hcs, ?_, ?_⟩
    · rintro (rfl | rfl | rfl | rfl) <;> simp at hc
    · rintro rfl
      simp at hc
  | text s => exact ⟨_, _, toList_string s, by decide, by decide⟩
  | @list ds items =>
    cases ds with
    | nil => exact ⟨'[', _, rfl, by decide, by decide⟩
    | cons d ds => exact ⟨'[', (compact d ++ compactItems ds ++ "]").toList, by simp [compact],
        by decide, by decide⟩
  | @table es entries =>
    cases es with
    | nil => exact ⟨'\x7b', _, rfl, by decide, by decide⟩
    | cons e es =>
      exact ⟨'\x7b', (string e.1 ++ ":" ++ compact e.2 ++ compactEntries es ++ "\x7d").toList,
        by simp [compact], by decide, by decide⟩

theorem items_compact (rest : List Char) (hd : ReadsBack d) (hds : ∀ e ∈ ds, ReadsBack e)
    (hfuel : (compact d).length + (compactItems ds).length < fuel) :
    items fuel ((compact d ++ compactItems ds).toList ++ ']' :: rest) =
      some (ordered d :: orderedItems ds, rest) := by
  -- each further item takes one step of fuel, for which its comma is there
  induction ds generalizing d fuel with
  | nil =>
    obtain ⟨fuel, rfl⟩ := Nat.exists_eq_add_one.mpr (Nat.zero_lt_of_lt hfuel)
    rw [compactItems, String.append_empty, items,
      hd fuel _ (by omega) (by rintro c ⟨⟩; exact .inr (.inl rfl))]
    rfl
  | cons e ds ih =>
    obtain ⟨fuel, rfl⟩ := Nat.exists_eq_add_one.mpr (Nat.zero_lt_of_lt hfuel)
    have htext : (compact d ++ compactItems (e :: ds)).toList ++ ']' :: rest =
        (compact d).toList ++ ',' :: ((compact e ++ compactItems ds).toList ++ ']' :: rest) := by
      simp [compactItems]
    rw [compactItems, String.length_append, String.length_append] at hfuel
    have hcomma : ",".length = 1 := rfl
    rw [htext, items, hd fuel _ (by omega) (by rintro c ⟨⟩; exact .inl rfl)]
    simp only [Option.bind_eq_bind, Option.bind_some, skip_of_solid (c := ',') (by decide)]
    rw [ih (hds e List.mem_cons_self) (fun x hx => hds x (List.mem_cons_of_mem _ hx)) (by omega)]
    rfl

theorem entries_compact (k : String) (acc : List (String × Document)) (rest : List Char)
    (hd : ReadsBack d) (hes : ∀ e ∈ es, ReadsBack e.2)
    (hfuel : (compact d).length + (compactEntries es).length < fuel) :
    entries fuel acc ((string k ++ ":" ++ compact d ++ compactEntries es).toList ++
        '\x7d' :: rest) = some (orderedEntries acc ((k, d) :: es), rest) := by
  induction es generalizing k d acc fuel with
  | nil =>
    obtain ⟨fuel, rfl⟩ := Nat.exists_eq_add_one.mpr (Nat.zero_lt_of_lt hfuel)
    obtain ⟨cs, hcs, hkey⟩ := stringRest_string k (':' :: ((compact d).toList ++ '\x7d' :: rest))
    have htext : (string k ++ ":" ++ compact d ++ compactEntries []).toList ++ '\x7d' :: rest =
        '\x22' :: cs := by
      rw [← hcs]
      simp [compactEntries]
    rw [htext, entries]
    simp only [skip_of_solid (c := '\x22') (by decide), hkey, Option.bind_eq_bind, Option.bind_some,
      skip_of_solid (c := ':') (by decide)]
    rw [hd fuel _ (by omega) (by rintro c ⟨⟩; exact .inr (.inr rfl))]
    rfl
  | cons e es ih =>
    obtain ⟨fuel, rfl⟩ := Nat.exists_eq_add_one.mpr (Nat.zero_lt_of_lt hfuel)
    obtain ⟨l, e⟩ := e
    obtain ⟨cs, hcs, hkey⟩ := stringRest_string k (':' :: ((compact d).toList ++ ',' ::
      ((string l ++ ":" ++ compact e ++ compactEntries es).toList ++ '\x7d' :: rest)))
    have htext : (string k ++ ":" ++ compact d ++ compactEntries ((l, e) :: es)).toList ++
        '\x7d' :: rest = '\x22' :: cs := by
      rw [← hcs]
      simp [compactEntries]
    simp only [compactEntries, String.length_append] at hfuel
    have hcomma : ",".length = 1 := rfl
    rw [htext, entries]
    simp only [skip_of_solid (c := '\x22') (by decide), hkey, Option.bind_eq_bind, Option.bind_some,
      skip_of_solid (c := ':') (by decide)]
    rw [hd fuel _ (by omega) (by rintro c ⟨⟩; exact .inl rfl)]
    simp only [Option.bind_some, skip_of_solid (c := ',') (by decide)]
    rw [ih l _ (show ReadsBack e from hes (l, e) List.mem_cons_self)
      (fun x hx => hes x (List.mem_cons_of_mem _ hx)) (by omega)]
    rfl

theorem readsBack_list (h : ∀ d ∈ ds, Exact d) (hds : ∀ d ∈ ds, ReadsBack d) :
    ReadsBack (.list ds) := by
  intro fuel rest hfuel hrest
  cases ds with
  | nil =>
    obtain ⟨fuel, rfl⟩ := Nat.exists_eq_add_one.mpr (Nat.zero_lt_of_lt hfuel)
    rfl
  | cons d ds =>
    -- the first item must not be taken for the bracket of an empty list
    obtain ⟨c, cs, hcs, hsolid, hopen⟩ := compact_head (h d List.mem_cons_self)
    have hbrackets : "[".length = 1 ∧ "]".length = 1 := ⟨rfl, rfl⟩
    simp only [compact, String.length_append] at hfuel
    obtain ⟨fuel, rfl⟩ : ∃ f, fuel = f + 1 := ⟨fuel - 1, by omega⟩
    have htext : (compact (.list (d :: ds))).toList ++ rest =
        '[' :: ((compact d ++ compactItems ds).toList ++ ']' :: rest) := by
      simp [compact]
    have hitems := items_compact rest (hds d List.mem_cons_self)
      (fun x hx => hds x (List.mem_cons_of_mem _ hx))
      (show (compact d).length + (compactItems ds).length < fuel by omega)
    rw [String.toList_append, hcs, List.cons_append, List.cons_append] at htext hitems
    rw [htext, document]
    simp only [skip_of_solid (c := '[') (by decide), skip_of_solid hsolid, List.cons.injEq, hopen,
      false_and, imp_self, implies_true, hitems, Option.map_some]
    rfl

theorem readsBack_table (h : ∀ e ∈ es, ReadsBack e.2) : ReadsBack (.table es) := by
  intro fuel rest hfuel hrest
  cases es with
  | nil =>
    obtain ⟨fuel, rfl⟩ := Nat.exists_eq_add_one.mpr (Nat.zero_lt_of_lt hfuel)
    rfl
  | cons e es =>
    obtain ⟨k, d⟩ := e
    have hbraces : "\x7b".length = 1 ∧ "\x7d".length = 1 := ⟨rfl, rfl⟩
    simp only [compact, String.length_append] at hfuel
    obtain ⟨fuel, rfl⟩ : ∃ f, fuel = f + 1 := ⟨fuel - 1, by omega⟩
    have hentries := entries_compact k [] rest
      (h (k, d) List.mem_cons_self)
      (fun x hx => h x (List.mem_cons_of_mem _ hx))
      (show (compact d).length + (compactEntries es).length < fuel by omega)
    have htext : (compact (.table ((k, d) :: es))).toList ++ rest =
        '\x7b' :: ((string k ++ ":" ++ compact d ++ compactEntries es).toList ++
          '\x7d' :: rest) := by
      simp [compact]
    obtain ⟨cs, hcs⟩ : ∃ cs, (string k ++ ":" ++ compact d ++ compactEntries es).toList ++
        '\x7d' :: rest = '\x22' :: cs := by
      simp [toList_string]
    rw [hcs] at htext hentries
    rw [htext, document]
    simp only [skip_of_solid (c := '\x7b') (by decide), skip_of_solid (c := '\x22') (by decide)]
    show (entries fuel [] ('\x22' :: cs)).map _ = _
    rw [hentries]
    rfl

theorem readsBack_of_exact (h : Exact d) : ReadsBack d := by
  induction h with
  | null =>
    intro fuel rest hfuel hrest
    obtain ⟨fuel, rfl⟩ := Nat.exists_eq_add_one.mpr (Nat.zero_lt_of_lt hfuel)
    rfl
  | bool b =>
    intro fuel rest hfuel hrest
    cases b <;>
    · obtain ⟨fuel, rfl⟩ := Nat.exists_eq_add_one.mpr (Nat.zero_lt_of_lt hfuel)
      rfl
  | int fits => exact readsBack_int fits
  | text s => exact readsBack_text s
  | list items ih => exact readsBack_list items ih
  | table entries ih => exact readsBack_table ih

/-- The text of a document is read as that document with its keys in order. -/
theorem parse_compact (h : Exact d) : parse (compact d) = some (ordered d) := by
  have hlength : (compact d).length ≤ (compact d).toList.length + 1 := by
    rw [String.length_toList]
    exact Nat.le_succ _
  have hread := readsBack_of_exact h _ [] hlength (by rintro c ⟨⟩)
  rw [List.append_nil] at hread
  simp [parse, hread, skip]

end

end Json

end BusBench

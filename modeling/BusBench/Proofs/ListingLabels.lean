import BusBench.Listing
import BusBench.Proofs.SpelledWords
import BusBench.Sentinel

namespace BusBench

/-- The end of the line that defines a sentinel's symbol, with the blank before it. -/
def Verdict.mark : Verdict → List Char
  | pass => " <pass>:".toList
  | fail => " <fail>:".toList

theorem Verdict.mark_eq (v : Verdict) : v.mark = ' ' :: v.mark.tail := by cases v <;> decide

namespace Labels

/-- The address of one sentinel. -/
def slot (labels : Labels) : Verdict → Option Word
  | .pass => labels.pass
  | .fail => labels.fail

def set (labels : Labels) (v : Verdict) (a : Word) : Labels :=
  match v with
  | .pass => { labels with pass := some a }
  | .fail => { labels with fail := some a }

/-- The sentinel that a line defines; where both symbols stand, it is the pass one. -/
def Defines (line : List Char) : Verdict → Prop
  | .pass => Verdict.pass.mark <:+: line
  | .fail => Verdict.fail.mark <:+: line ∧ ¬ Verdict.pass.mark <:+: line

/-- A line with a sentinel's symbol. -/
def Labelled (line : List Char) : Prop := ∃ v : Verdict, v.mark <:+: line

/-- What the first token of a line is read as. -/
def Addressed (line : List Char) (read : Except HexError Word) : Prop :=
  ∃ token, Leads token line ∧ Word.parse (String.ofList token) = read

/-- The line can be used: the address before a symbol is a word. -/
def Usable (line : List Char) : Prop := Labelled line → ∃ a, Addressed line (.ok a)

/-- The last line that defines a sentinel gives it this address. -/
def LastDefined (ls : List (List Char)) (v : Verdict) (a : Word) : Prop :=
  ∃ before line after, ls = before ++ line :: after ∧ Defines line v ∧ Addressed line (.ok a) ∧
    ∀ l ∈ after, ¬ Defines l v

section

variable {line : List Char} {ls : List (List Char)} {n : Nat} {labels out : Labels} {v u : Verdict}
  {a b : Word} {read : Except HexError Word}

theorem addressed_iff :
    Addressed line read ↔ Word.parse (String.ofList (firstToken line)) = read := by
  constructor
  · rintro ⟨token, hleads, hread⟩
    rw [← hleads.eq_firstToken, hread]
  · intro hread
    exact ⟨_, leads_firstToken line, hread⟩

theorem labelled_iff : Labelled line ↔ ∃ v, Defines line v := by
  constructor
  · rintro ⟨v, hv⟩
    by_cases hpass : Verdict.pass.mark <:+: line
    · exact ⟨.pass, hpass⟩
    · cases v with
      | pass => exact absurd hv hpass
      | fail => exact ⟨.fail, hv, hpass⟩
  · rintro ⟨v, hv⟩
    cases v with
    | pass => exact ⟨.pass, hv⟩
    | fail => exact ⟨.fail, hv.1⟩

theorem Defines.unique (h : Defines line v) (h' : Defines line u) : v = u := by
  cases v <;> cases u
  · rfl
  · exact absurd h h'.2
  · exact absurd h' h.2
  · rfl

theorem defined?_eq (line : List Char) :
    defined? line =
      if occursIn Verdict.pass.mark line then some fun a labels => labels.set .pass a
      else if occursIn Verdict.fail.mark line then some fun a labels => labels.set .fail a
      else none := rfl

theorem defined?_of_defines (h : Defines line v) :
    defined? line = some fun a labels => labels.set v a := by
  rw [defined?_eq]
  cases v with
  | pass => rw [if_pos (occursIn_iff.mpr h)]
  | fail => rw [if_neg fun hpass => h.2 (occursIn_iff.mp hpass), if_pos (occursIn_iff.mpr h.1)]

theorem defined?_of_unlabelled (h : ¬ Labelled line) : defined? line = none := by
  rw [defined?_eq, if_neg fun hpass => h ⟨.pass, occursIn_iff.mp hpass⟩,
    if_neg fun hfail => h ⟨.fail, occursIn_iff.mp hfail⟩]

theorem ofLines_unlabelled (h : ¬ Labelled line) :
    ofLines n labels (line :: ls) = ofLines (n + 1) labels ls := by
  simp only [ofLines, defined?_of_unlabelled h]

theorem ofLines_defines (h : Defines line v) (ha : Addressed line (.ok a)) :
    ofLines n labels (line :: ls) = ofLines (n + 1) (labels.set v a) ls := by
  simp only [ofLines, defined?_of_defines h, addressed_iff.mp ha]

theorem ofLines_unaddressed {e : HexError} (h : Labelled line) (he : Addressed line (.error e)) :
    ofLines n labels (line :: ls) = .error ⟨n, e⟩ := by
  obtain ⟨v, hv⟩ := labelled_iff.mp h
  simp only [ofLines, defined?_of_defines hv, addressed_iff.mp he]

theorem ext_slot (h : ∀ v, labels.slot v = out.slot v) : labels = out := by
  obtain ⟨p, f⟩ := labels
  obtain ⟨p', f'⟩ := out
  obtain rfl : p = p' := h .pass
  obtain rfl : f = f' := h .fail
  rfl

theorem slot_set : (labels.set v a).slot v = some a := by cases v <;> rfl

theorem slot_set_of_ne (h : u ≠ v) : (labels.set v a).slot u = labels.slot u := by
  cases v <;> cases u
  · exact absurd rfl h
  · rfl
  · rfl
  · exact absurd rfl h

/-- A line either does not count, or defines a sentinel with an address, or is to blame. -/
theorem line_cases (line : List Char) :
    ¬ Labelled line ∨ (∃ v a, Defines line v ∧ Addressed line (.ok a)) ∨
      (Labelled line ∧ ∃ e, Addressed line (.error e)) := by
  by_cases h : Labelled line
  · obtain ⟨v, hv⟩ := labelled_iff.mp h
    cases hread : Word.parse (String.ofList (firstToken line)) with
    | ok a => exact .inr (.inl ⟨v, a, hv, addressed_iff.mpr hread⟩)
    | error e => exact .inr (.inr ⟨h, e, addressed_iff.mpr hread⟩)
  · exact .inl h

theorem Addressed.unique {read' : Except HexError Word} (h : Addressed line read)
    (h' : Addressed line read') : read = read' := by
  rw [← addressed_iff.mp h, ← addressed_iff.mp h']

theorem ofLines_append {before after : List (List Char)} :
    ofLines n labels (before ++ after) =
      (ofLines n labels before).bind fun out => ofLines (n + before.length) out after := by
  induction before generalizing n labels with
  | nil => rfl
  | cons l before ih =>
    have hlength : n + 1 + before.length = n + (l :: before).length := by
      rw [List.length_cons]
      omega
    rw [List.cons_append, ← hlength]
    rcases line_cases l with h | ⟨v, a, hv, ha⟩ | ⟨h, e, he⟩
    · rw [ofLines_unlabelled h, ofLines_unlabelled h, ih]
    · rw [ofLines_defines hv ha, ofLines_defines hv ha, ih]
    · rw [ofLines_unaddressed h he, ofLines_unaddressed h he]
      rfl

theorem exists_ofLines (n : Nat) (labels : Labels) (h : ∀ l ∈ ls, Usable l) :
    ∃ out, ofLines n labels ls = .ok out := by
  induction ls generalizing n labels with
  | nil => exact ⟨labels, rfl⟩
  | cons l ls ih =>
    have hrest (labels : Labels) :=
      ih (n + 1) labels fun l' hl' => h l' (List.mem_cons_of_mem l hl')
    rcases line_cases l with hl | ⟨v, a, hv, ha⟩ | ⟨hl, e, he⟩
    · rw [ofLines_unlabelled hl]
      exact hrest labels
    · rw [ofLines_defines hv ha]
      exact hrest (labels.set v a)
    · obtain ⟨a, ha⟩ := h l List.mem_cons_self hl
      cases he.unique ha

/-- The first line that cannot be used ends the reading. -/
theorem ofLines_unusable {before after : List (List Char)} {e : HexError}
    (hbefore : ∀ l ∈ before, Usable l) (hl : Labelled line) (he : Addressed line (.error e)) :
    ofLines n labels (before ++ line :: after) = .error ⟨n + before.length, e⟩ := by
  obtain ⟨out, hout⟩ := exists_ofLines n labels hbefore
  rw [ofLines_append, hout]
  exact ofLines_unaddressed hl he

theorem exists_first_unusable (h : ¬ ∀ l ∈ ls, Usable l) :
    ∃ before line after e, ls = before ++ line :: after ∧ (∀ l ∈ before, Usable l) ∧
      Labelled line ∧ Addressed line (.error e) := by
  obtain ⟨before, line, after, hls, hbefore, hline⟩ := exists_first_not h
  rcases line_cases line with hl | ⟨v, a, hv, ha⟩ | ⟨hl, e, he⟩
  · exact absurd (fun hlabelled => absurd hlabelled hl) hline
  · exact absurd (fun _ => ⟨a, ha⟩) hline
  · exact ⟨before, line, after, e, hls, hbefore, hl, he⟩

theorem usable_of_ofLines (h : ofLines n labels ls = .ok out) : ∀ l ∈ ls, Usable l := by
  by_contra hnot
  obtain ⟨before, line, after, e, rfl, hbefore, hl, he⟩ := exists_first_unusable hnot
  cases h.symm.trans (ofLines_unusable hbefore hl he)

theorem slot_of_undefined (hls : ∀ l ∈ ls, ¬ Defines l v) (h : ofLines n labels ls = .ok out) :
    out.slot v = labels.slot v := by
  induction ls generalizing n labels with
  | nil => cases h; rfl
  | cons l ls ih =>
    have hrest : ∀ l' ∈ ls, ¬ Defines l' v := fun l' hl' => hls l' (List.mem_cons_of_mem l hl')
    rcases line_cases l with hl | ⟨u, a, hu, ha⟩ | ⟨hl, e, he⟩
    · rw [ofLines_unlabelled hl] at h
      exact ih hrest h
    · rw [ofLines_defines hu ha] at h
      have hne : v ≠ u := fun heq => hls l List.mem_cons_self (heq ▸ hu)
      rw [ih hrest h, slot_set_of_ne hne]
    · rw [ofLines_unaddressed hl he] at h
      cases h

theorem slot_of_lastDefined (hls : LastDefined ls v a) (h : ofLines n labels ls = .ok out) :
    out.slot v = some a := by
  obtain ⟨before, line, after, rfl, hv, ha, hafter⟩ := hls
  rw [ofLines_append] at h
  cases hbefore : ofLines n labels before with
  | error e => rw [hbefore] at h; cases h
  | ok labels' =>
    rw [hbefore] at h
    change ofLines (n + before.length) labels' (line :: after) = .ok out at h
    rw [ofLines_defines hv ha] at h
    rw [slot_of_undefined hafter h, slot_set]

theorem exists_lastDefined (hls : ∀ l ∈ ls, Usable l) (h : ∃ l ∈ ls, Defines l v) :
    ∃ a, LastDefined ls v a := by
  induction ls with
  | nil =>
    obtain ⟨l, hl, -⟩ := h
    cases hl
  | cons l ls ih =>
    by_cases hlater : ∃ l' ∈ ls, Defines l' v
    · obtain ⟨a, before, line, after, rfl, hrest⟩ :=
        ih (fun l' hl' => hls l' (List.mem_cons_of_mem l hl')) hlater
      exact ⟨a, l :: before, line, after, rfl, hrest⟩
    · have hnone : ∀ l' ∈ ls, ¬ Defines l' v := fun l' hl' hv => hlater ⟨l', hl', hv⟩
      obtain ⟨l', hl', hv⟩ := h
      obtain rfl : l' = l := (List.mem_cons.mp hl').resolve_right fun hmem => hnone l' hmem hv
      obtain ⟨a, ha⟩ := hls l' List.mem_cons_self (labelled_iff.mpr ⟨v, hv⟩)
      exact ⟨a, [], l', ls, rfl, hv, ha, hnone⟩

end

section

variable {text : String} {labels : Labels}

theorem slot_eq_some_iff (h : ofListing text = .ok labels) (v : Verdict) (a : Word) :
    labels.slot v = some a ↔ LastDefined (lines text.toList) v a := by
  refine ⟨fun ha => ?_, fun ha => slot_of_lastDefined ha h⟩
  by_cases hsome : ∃ l ∈ lines text.toList, Defines l v
  · obtain ⟨b, hb⟩ := exists_lastDefined (usable_of_ofLines h) hsome
    cases ha.symm.trans (slot_of_lastDefined hb h)
    exact hb
  · have hnone := slot_of_undefined (fun l hl hv => hsome ⟨l, hl, hv⟩) h
    rw [ha] at hnone
    cases v <;> cases hnone

theorem slot_eq_none_iff (h : ofListing text = .ok labels) (v : Verdict) :
    labels.slot v = none ↔ ∀ l ∈ lines text.toList, ¬ Defines l v := by
  constructor
  · intro hnone l hl hv
    obtain ⟨a, ha⟩ := exists_lastDefined (usable_of_ofLines h) ⟨l, hl, hv⟩
    cases hnone.symm.trans (slot_of_lastDefined ha h)
  · intro hls
    rw [slot_of_undefined hls h]
    cases v <;> rfl

theorem ofListing_eq_error_iff {e : LabelError} :
    ofListing text = .error e ↔ ∃ before line after,
      lines text.toList = before ++ line :: after ∧ (∀ l ∈ before, Usable l) ∧ Labelled line ∧
        Addressed line (.error e.error) ∧ e.line = before.length + 1 := by
  constructor
  · intro h
    have hnot : ¬ ∀ l ∈ lines text.toList, Usable l := by
      intro hall
      obtain ⟨out, hout⟩ := exists_ofLines 1 {} hall
      cases h.symm.trans hout
    obtain ⟨before, line, after, fault, hls, hbefore, hl, hfault⟩ := exists_first_unusable hnot
    have hread : ofListing text = .error ⟨1 + before.length, fault⟩ := by
      rw [ofListing, hls, ofLines_unusable hbefore hl hfault]
    cases h.symm.trans hread
    exact ⟨before, line, after, hls, hbefore, hl, hfault, Nat.add_comm _ _⟩
  · rintro ⟨before, line, after, hls, hbefore, hl, hfault, hline⟩
    rw [ofListing, hls, ofLines_unusable hbefore hl hfault, Nat.add_comm, ← hline]

/-- The line that defines a sentinel's symbol: its address in hexadecimal digits, then its name. -/
def symbolLine (address : WordText) (v : Verdict) : List Char := address.content ++ v.mark

variable {address : WordText} {v u : Verdict} {a : Word}

theorem content_ne_nil (address : WordText) : address.content ≠ [] := by
  intro hnil
  obtain ⟨-, hrest⟩ := List.append_eq_nil_iff.mp hnil
  obtain ⟨-, hdigits⟩ := List.append_eq_nil_iff.mp hrest
  have hnone : address.digits = [] := List.map_eq_nil_iff.mp hdigits
  exact address.some_digit (by rw [hnone]; rfl)

theorem symbolLine_addressed_iff :
    Addressed (symbolLine address v) (.ok a) ↔ address.number = a.toNat := by
  have hleads : Leads address.content (symbolLine address v) := by
    refine ⟨[], v.mark, rfl, fun c hc => absurd hc List.not_mem_nil,
      fun c hc => address.isBlank_of_mem_content hc, fun c hc => ?_,
      fun hnil => absurd hnil (content_ne_nil address)⟩
    rw [v.mark_eq] at hc
    cases hc
    decide
  have hbare : address.content =
      WordText.chars { address with before := [], after := [], blank_before := nofun,
                                    blank_after := nofun } := (List.append_nil _).symm
  rw [addressed_iff, ← hleads.eq_firstToken, hbare, Word.parse_chars_iff]
  rfl

/-- A symbol's line has no other mark than its own, as there is no blank in the address. -/
theorem mark_infix_symbolLine : u.mark <:+: symbolLine address v ↔ u = v := by
  constructor
  · intro h
    have hblank : ' ' ∉ address.content := fun hmem =>
      absurd (address.isBlank_of_mem_content hmem) (by decide)
    have hmark : u.mark <:+: v.mark := by
      rw [u.mark_eq] at h ⊢
      exact infix_of_append hblank h
    rw [← occursIn_iff] at hmark
    revert hmark
    cases u <;> cases v <;> decide
  · rintro rfl
    exact (List.suffix_append _ _).isInfix

theorem defines_symbolLine : Defines (symbolLine address v) u ↔ u = v := by
  cases u with
  | pass => exact mark_infix_symbolLine
  | fail =>
    rw [Defines, mark_infix_symbolLine, mark_infix_symbolLine]
    cases v <;> simp

/-- A listing where nothing but the line of one symbol for each sentinel has a mark names the
addresses of these symbols, if they are words. -/
theorem ofListing_of_symbols_iff {symbols : Verdict → WordText}
    (honly : ∀ l ∈ lines text.toList, Labelled l → ∃ v, l = symbolLine (symbols v) v)
    (hstand : ∀ v, symbolLine (symbols v) v ∈ lines text.toList) :
    ofListing text = .ok labels ↔
      ∀ v, ∃ a, labels.slot v = some a ∧ (symbols v).number = a.toNat := by
  have hlast {v : Verdict} {a : Word} (h : LastDefined (lines text.toList) v a) :
      (symbols v).number = a.toNat := by
    obtain ⟨before, l, after, hls, hv, ha, -⟩ := h
    have hmem : l ∈ lines text.toList := hls ▸ List.mem_append_right _ List.mem_cons_self
    obtain ⟨u, rfl⟩ := honly l hmem (labelled_iff.mpr ⟨v, hv⟩)
    obtain rfl := defines_symbolLine.mp hv
    exact symbolLine_addressed_iff.mp ha
  constructor
  · intro h v
    obtain ⟨a, ha⟩ := exists_lastDefined (usable_of_ofLines h)
      ⟨_, hstand v, defines_symbolLine.mpr rfl⟩
    exact ⟨a, slot_of_lastDefined ha h, hlast ha⟩
  · intro h
    have husable : ∀ l ∈ lines text.toList, Usable l := by
      intro l hl hlabelled
      obtain ⟨v, rfl⟩ := honly l hl hlabelled
      obtain ⟨a, -, ha⟩ := h v
      exact ⟨a, symbolLine_addressed_iff.mpr ha⟩
    obtain ⟨out, hout⟩ := exists_ofLines 1 {} husable
    have hslots : out = labels := by
      refine ext_slot fun v => ?_
      obtain ⟨a, hslot, ha⟩ := h v
      obtain ⟨b, hb⟩ := exists_lastDefined husable ⟨_, hstand v, defines_symbolLine.mpr rfl⟩
      rw [slot_of_lastDefined hb hout, hslot, UInt32.toNat_inj.mp ((hlast hb).symm.trans ha)]
    rw [ofListing, hout, hslots]

/-- A listing can be read exactly if the first token of every line with a sentinel's symbol is a
word. Then each sentinel has the address of the last line that defines it, or none if no line
does, where a line with both symbols defines the pass sentinel alone. Else the first line whose
token is no word is to blame, by its number. So the lines of the two symbols name exactly the
addresses that are spelled there, whatever other lines without the symbols stand around them. -/
theorem listing_names_sentinels (text : String) :
    ((∃ labels, ofListing text = .ok labels) ↔ ∀ l ∈ lines text.toList, Usable l) ∧
      (∀ labels, ofListing text = .ok labels → ∀ v,
        (∀ a, labels.slot v = some a ↔ LastDefined (lines text.toList) v a) ∧
          (labels.slot v = none ↔ ∀ l ∈ lines text.toList, ¬ Defines l v)) ∧
      (∀ e, ofListing text = .error e ↔ ∃ before line after,
        lines text.toList = before ++ line :: after ∧ (∀ l ∈ before, Usable l) ∧ Labelled line ∧
          Addressed line (.error e.error) ∧ e.line = before.length + 1) ∧
      ∀ symbols : Verdict → WordText,
        (∀ l ∈ lines text.toList, Labelled l → ∃ v, l = symbolLine (symbols v) v) →
        (∀ v, symbolLine (symbols v) v ∈ lines text.toList) →
        ∀ labels, ofListing text = .ok labels ↔
          ∀ v, ∃ a, labels.slot v = some a ∧ (symbols v).number = a.toNat := by
  refine ⟨⟨?_, exists_ofLines 1 {}⟩, fun labels h v => ⟨slot_eq_some_iff h v, slot_eq_none_iff h v⟩,
    fun e => ofListing_eq_error_iff,
    fun symbols honly hstand labels => ofListing_of_symbols_iff honly hstand⟩
  rintro ⟨labels, h⟩
  exact usable_of_ofLines h

end

instance (line : List Char) : Decidable (Labelled line) :=
  decidable_of_iff (∃ v ∈ [Verdict.pass, .fail], occursIn v.mark line = true) <| by
    simp only [occursIn_iff, Labelled]
    refine ⟨fun ⟨v, _, hv⟩ => ⟨v, hv⟩, fun ⟨v, hv⟩ => ⟨v, ?_, hv⟩⟩
    cases v <;> simp

/-- Both sentinels are jumped to, one of them before its symbol. -/
def jumps : String :=
  "build/add.elf:     file format elf32\n\n" ++
    "00000000 <_start>:\n   0:\t1040006f\tj\t104 <fail>\n\n" ++
    "00000104 <fail>:\n 104:\tffdff06f\tj\t100 <pass>\n\n" ++
    "00000100 <pass>:\n 100:\t0000006f\tj\t100 <pass>\n"

/-- The symbols of `jumps`, in eight digits each. -/
def jumpSymbols : Verdict → WordText
  | .pass => { (0x100 : Word).hexSpelling with mark := .none }
  | .fail => { (0x104 : Word).hexSpelling with mark := .none }

theorem listing_names_sentinels_of_jumps :
    (∀ l ∈ lines jumps.toList, Labelled l → ∃ v, l = symbolLine (jumpSymbols v) v) ∧
      (∀ v, symbolLine (jumpSymbols v) v ∈ lines jumps.toList) ∧
      ofListing jumps = .ok ⟨some 0x100, some 0x104⟩ ∧
      ofListing "\nzzzz <pass>:\n" = .error ⟨2, ⟨"zzzz", .badDigit⟩⟩ := by
  obtain ⟨hlines, hpass, hfail⟩ : (∀ l ∈ lines jumps.toList, Labelled l →
      l = symbolLine (jumpSymbols .pass) .pass ∨ l = symbolLine (jumpSymbols .fail) .fail) ∧
      symbolLine (jumpSymbols .pass) .pass ∈ lines jumps.toList ∧
      symbolLine (jumpSymbols .fail) .fail ∈ lines jumps.toList := by
    decide +kernel
  have honly : ∀ l ∈ lines jumps.toList, Labelled l → ∃ v, l = symbolLine (jumpSymbols v) v :=
    fun l hl hlabelled => (hlines l hl hlabelled).elim (⟨.pass, ·⟩) (⟨.fail, ·⟩)
  have hstand : ∀ v, symbolLine (jumpSymbols v) v ∈ lines jumps.toList := by
    intro v
    cases v
    · exact hpass
    · exact hfail
  obtain ⟨-, -, -, hsymbols⟩ := listing_names_sentinels jumps
  obtain ⟨-, -, herror, -⟩ := listing_names_sentinels "\nzzzz <pass>:\n"
  refine ⟨honly, hstand, (hsymbols jumpSymbols honly hstand _).mpr ?_, (herror _).mpr ?_⟩
  · intro v
    cases v with
    | pass => exact ⟨0x100, rfl, Word.number_hexSpelling 0x100⟩
    | fail => exact ⟨0x104, rfl, Word.number_hexSpelling 0x104⟩
  · refine ⟨[[]], "zzzz <pass>:".toList, [], by decide, ?_, by decide,
      addressed_iff.mpr (by decide), rfl⟩
    intro l hl hlabelled
    obtain rfl := List.mem_singleton.mp hl
    exact absurd hlabelled (by decide)

end Labels

end BusBench

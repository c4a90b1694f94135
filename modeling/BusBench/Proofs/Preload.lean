import BusBench.Proofs.ImageText
import BusBench.Proofs.Lanes

namespace BusBench

namespace Memory

variable {m m' : Memory} {addr slot : Nat} {offset : Word} {w : ImageWord} {ws : List ImageWord}

/-- A word that starts at this number is mapped. -/
def Maps (lo hi : Word) (addr : Nat) : Prop := lo.toNat ≤ addr ∧ addr ≤ hi.toNat

instance (lo hi : Word) (addr : Nat) : Decidable (Maps lo hi addr) :=
  inferInstanceAs (Decidable (_ ∧ _))

/-- The same range and the same fill word. -/
structure Like (m m' : Memory) : Prop where
  lo : m'.lo = m.lo
  hi : m'.hi = m.hi
  fill : m'.fill = m.fill

theorem Like.trans {m₁ m₂ m₃ : Memory} (h : m₁.Like m₂) (h' : m₂.Like m₃) : m₁.Like m₃ :=
  ⟨h'.lo.trans h.lo, h'.hi.trans h.hi, h'.fill.trans h.fill⟩

theorem Maps.lt_size {lo hi : Word} (h : Maps lo hi addr) : addr < UInt32.size :=
  h.2.trans_lt hi.toNat_lt

theorem maps_later {lo hi : Word} {n : Nat} (h : ∀ i < n + 1, Maps lo hi (addr + 4 * (slot + i))) :
    ∀ i < n, Maps lo hi (addr + 4 * (slot + 1 + i)) := by
  intro i hi
  rw [Nat.add_right_comm]
  exact h (i + 1) (Nat.succ_lt_succ hi)

theorem contains_iff {a : Word} : m.contains a = true ↔ Maps m.lo m.hi a.toNat := by
  simp [contains, Maps, UInt32.le_iff_toNat_le]

theorem check_ok {a : Word} (ha : a.toNat % 4 = 0) (h : Maps m.lo m.hi a.toNat) :
    m.check a = .ok () := by
  simp [check, (aligned_iff a).mpr ha, contains_iff.mpr h]

theorem check_refused {a : Word} (h : ¬ (a.toNat % 4 = 0 ∧ Maps m.lo m.hi a.toNat)) :
    ∃ e, m.check a = .error e := by
  unfold check
  by_cases ha : a.aligned = true
  · have hc : ¬ m.contains a = true := fun hc => h ⟨(aligned_iff a).mp ha, contains_iff.mp hc⟩
    exact ⟨.outOfRange a m.lo m.hi, by simp [ha, hc]⟩
  · exact ⟨.unaligned a, by simp [ha]⟩

theorem store_ok {a : Word} (value : Word) (ha : a.toNat % 4 = 0) (h : Maps m.lo m.hi a.toNat) :
    m.store a value = .ok { m with words := m.words.insert a value } := by
  rw [store, check_ok ha h]
  rfl

theorem store_refused {a : Word} (value : Word) (h : ¬ (a.toNat % 4 = 0 ∧ Maps m.lo m.hi a.toNat)) :
    ∃ e, m.store a value = .error e := by
  obtain ⟨e, he⟩ := check_refused h
  exact ⟨e, by rw [store, he]; rfl⟩

theorem ofNat?_eq_some {n : Nat} (h : n < UInt32.size) :
    Word.ofNat? n = some (UInt32.ofNat n) := if_pos h

theorem ofNat?_eq_none {n : Nat} (h : UInt32.size ≤ n) : Word.ofNat? n = none :=
  if_neg (Nat.not_lt.mpr h)

/-- The steps to an address stay within 32 bits as long as the address does. -/
theorem slotAddr?_eq (offset : Word) (slot : Nat) :
    slotAddr? offset slot = Word.ofNat? (offset.toNat + 4 * slot) := by
  rcases Nat.lt_or_ge (offset.toNat + 4 * slot) UInt32.size with h | h
  · have hslot : slot < UInt32.size := by omega
    have hdistance : slot * 4 < UInt32.size := by omega
    simp only [slotAddr?, ofNat?_eq_some hslot, Option.bind_eq_bind, Option.bind_some,
      UInt32.toNat_ofNat_of_lt' hslot, ofNat?_eq_some hdistance,
      UInt32.toNat_ofNat_of_lt' hdistance]
    rw [Nat.mul_comm]
  · rw [ofNat?_eq_none h]
    rcases Nat.lt_or_ge slot UInt32.size with hslot | hslot
    · rcases Nat.lt_or_ge (slot * 4) UInt32.size with hdistance | hdistance
      · simp only [slotAddr?, ofNat?_eq_some hslot, Option.bind_eq_bind, Option.bind_some,
          UInt32.toNat_ofNat_of_lt' hslot, ofNat?_eq_some hdistance,
          UInt32.toNat_ofNat_of_lt' hdistance]
        exact ofNat?_eq_none (by omega)
      · simp [slotAddr?, ofNat?_eq_some hslot, UInt32.toNat_ofNat_of_lt' hslot,
          ofNat?_eq_none hdistance]
    · simp [slotAddr?, ofNat?_eq_none hslot]

/-- The words of an image with the addresses that start at a slot. -/
def spread (offset : Word) (slot : Nat) : List ImageWord → List (Word × ImageWord)
  | [] => []
  | w :: ws => (.ofNat (offset.toNat + 4 * slot), w) :: spread offset (slot + 1) ws

theorem length_spread : (spread offset slot ws).length = ws.length := by
  induction ws generalizing slot with
  | nil => rfl
  | cons w ws ih => rw [spread, List.length_cons, List.length_cons, ih]

/-- What is wrong with a word whose address is not mapped. -/
def misplaced (m : Memory) (addr : Nat) (w : ImageWord) : PreloadError :=
  if addr < UInt32.size then .memory w.line (.outOfRange (.ofNat addr) m.lo m.hi)
  else .overflow w.line

theorem allot_cons_ok (h : Maps m.lo m.hi (offset.toNat + 4 * slot)) :
    m.allot offset slot (w :: ws) =
      (m.allot offset (slot + 1) ws).map ((.ofNat (offset.toNat + 4 * slot), w) :: ·) := by
  have hcontains : m.contains (.ofNat (offset.toNat + 4 * slot)) = true := by
    rw [contains_iff, UInt32.toNat_ofNat_of_lt' h.lt_size]
    exact h
  simp only [allot, slotAddr?_eq, ofNat?_eq_some h.lt_size, hcontains, if_true]

theorem allot_cons_misplaced (h : ¬ Maps m.lo m.hi (offset.toNat + 4 * slot)) :
    m.allot offset slot (w :: ws) = .error (m.misplaced (offset.toNat + 4 * slot) w) := by
  rcases Nat.lt_or_ge (offset.toNat + 4 * slot) UInt32.size with hlt | hge
  · have hcontains : ¬ m.contains (.ofNat (offset.toNat + 4 * slot)) = true := by
      rw [contains_iff, UInt32.toNat_ofNat_of_lt' hlt]
      exact h
    simp only [allot, slotAddr?_eq, ofNat?_eq_some hlt, if_neg hcontains, misplaced, if_pos hlt]
  · simp only [allot, slotAddr?_eq, ofNat?_eq_none hge, misplaced, if_neg (Nat.not_lt.mpr hge)]

theorem allot_ok (h : ∀ i < ws.length, Maps m.lo m.hi (offset.toNat + 4 * (slot + i))) :
    m.allot offset slot ws = .ok (spread offset slot ws) := by
  induction ws generalizing slot with
  | nil => rfl
  | cons w ws ih =>
    have hfirst : Maps m.lo m.hi (offset.toNat + 4 * slot) := h 0 (Nat.succ_pos _)
    rw [allot_cons_ok hfirst, ih (maps_later h)]
    rfl

theorem allot_misplaced {k : Nat} (hk : ws[k]? = some w)
    (hbefore : ∀ i < k, Maps m.lo m.hi (offset.toNat + 4 * (slot + i)))
    (hnot : ¬ Maps m.lo m.hi (offset.toNat + 4 * (slot + k))) :
    m.allot offset slot ws = .error (m.misplaced (offset.toNat + 4 * (slot + k)) w) := by
  induction k generalizing slot ws with
  | zero =>
    cases ws with
    | nil => cases hk
    | cons w' ws =>
      cases hk
      exact allot_cons_misplaced hnot
  | succ k ih =>
    cases ws with
    | nil => cases hk
    | cons w' ws =>
      have hshift : slot + (k + 1) = slot + 1 + k := by omega
      rw [hshift] at hnot ⊢
      have hfirst : Maps m.lo m.hi (offset.toNat + 4 * slot) := hbefore 0 (Nat.succ_pos k)
      rw [allot_cons_ok hfirst, ih hk (maps_later hbefore) hnot]
      rfl

/-- The word that words from an address on put at another. -/
def wordPut (addr : Nat) (ws : List ImageWord) (a : Nat) : Option Word :=
  if addr ≤ a ∧ (a - addr) % 4 = 0 then (ws[(a - addr) / 4]?).map (·.word) else none

theorem wordPut_cons (addr : Nat) (w : ImageWord) (ws : List ImageWord) (a : Nat) :
    wordPut addr (w :: ws) a = if a = addr then some w.word else wordPut (addr + 4) ws a := by
  unfold wordPut
  by_cases heq : a = addr
  · subst heq
    simp
  · rw [if_neg heq]
    by_cases hlater : addr + 4 ≤ a ∧ (a - (addr + 4)) % 4 = 0
    · rw [if_pos hlater, if_pos (by omega),
        show (a - addr) / 4 = (a - (addr + 4)) / 4 + 1 by omega, List.getElem?_cons_succ]
    · rw [if_neg hlater, if_neg (by omega)]

/-- Words whose addresses are aligned and mapped are all stored, each where it belongs. -/
theorem storeAll_spread (haligned : offset.toNat % 4 = 0)
    (h : ∀ i < ws.length, Maps m.lo m.hi (offset.toNat + 4 * (slot + i))) :
    ∃ m', m.storeAll (spread offset slot ws) = (m', .ok ()) ∧ m.Like m' ∧
      ∀ a : Word, m'.words[a]? = (wordPut (offset.toNat + 4 * slot) ws a.toNat).or m.words[a]? := by
  induction ws generalizing m slot with
  | nil =>
    refine ⟨m, rfl, ⟨rfl, rfl, rfl⟩, fun a => ?_⟩
    simp [wordPut]
  | cons w ws ih =>
    have hfirst : Maps m.lo m.hi (offset.toNat + 4 * slot) := h 0 (Nat.succ_pos _)
    have haddr := UInt32.toNat_ofNat_of_lt' hfirst.lt_size
    have hstore := store_ok (m := m) (a := .ofNat (offset.toNat + 4 * slot)) w.word
      (by rw [haddr]; omega) (by rw [haddr]; exact hfirst)
    obtain ⟨m', hall, hlike, hwords⟩ :=
      ih (m := { m with words := m.words.insert (.ofNat (offset.toNat + 4 * slot)) w.word })
        (maps_later h)
    refine ⟨m', ?_, ⟨hlike.lo, hlike.hi, hlike.fill⟩, fun a => ?_⟩
    · rw [spread, storeAll, hstore]
      exact hall
    · have hsame : compare (UInt32.ofNat (offset.toNat + 4 * slot)) a = .eq ↔
          a.toNat = offset.toNat + 4 * slot := by
        rw [Std.compare_eq_iff_eq, ← UInt32.toNat_inj, haddr, eq_comm]
      rw [hwords a, wordPut_cons, Std.ExtTreeMap.getElem?_insert]
      simp only [hsame]
      by_cases ha : a.toNat = offset.toNat + 4 * slot
      -- the later words lie above, so none of them replaces the first
      · have hnone : wordPut (offset.toNat + 4 * (slot + 1)) ws a.toNat = none := by
          rw [wordPut, if_neg (by omega)]
        rw [if_pos ha, if_pos ha, hnone]
        rfl
      · rw [if_neg ha, if_neg ha, show offset.toNat + 4 * (slot + 1) = offset.toNat + 4 * slot + 4
          by omega]

theorem store_like {a value : Word} (h : m.store a value = .ok m') : m.Like m' := by
  unfold store at h
  cases hc : m.check a with
  | error e => rw [hc] at h; cases h
  | ok u => rw [hc] at h; cases h; exact ⟨rfl, rfl, rfl⟩

theorem storeAll_like (m : Memory) (ps : List (Word × ImageWord)) : m.Like (m.storeAll ps).1 := by
  induction ps generalizing m with
  | nil => exact ⟨rfl, rfl, rfl⟩
  | cons p ps ih =>
    obtain ⟨a, w⟩ := p
    rw [storeAll]
    cases hstore : m.store a w.word with
    | error e => exact ⟨rfl, rfl, rfl⟩
    | ok m₁ => exact (store_like hstore).trans (ih m₁)

/-- All words of an image are mapped. -/
def Fits (m : Memory) (offset : Word) (ws : List ImageWord) : Prop :=
  ws = [] ∨ m.lo.toNat ≤ offset.toNat ∧ offset.toNat + 4 * (ws.length - 1) ≤ m.hi.toNat

theorem fits_iff : m.Fits offset ws ↔ ∀ i < ws.length, Maps m.lo m.hi (offset.toNat + 4 * i) := by
  constructor
  · rintro (rfl | ⟨hlo, hhi⟩) i hi
    · cases hi
    · exact ⟨by omega, by omega⟩
  · intro h
    rcases Nat.eq_zero_or_pos ws.length with hnil | hpos
    · exact .inl (List.length_eq_zero_iff.mp hnil)
    · exact .inr ⟨(h 0 hpos).1, (h (ws.length - 1) (by omega)).2⟩

theorem exists_first_misplaced (h : ¬ m.Fits offset ws) :
    ∃ k w, ws[k]? = some w ∧ (∀ i < k, Maps m.lo m.hi (offset.toNat + 4 * i)) ∧
      ¬ Maps m.lo m.hi (offset.toNat + 4 * k) := by
  have hsome : ∃ k, k < ws.length ∧ ¬ Maps m.lo m.hi (offset.toNat + 4 * k) := by
    by_contra hnone
    push Not at hnone
    exact h (fits_iff.mpr hnone)
  obtain ⟨hlt, hnot⟩ := Nat.find_spec hsome
  refine ⟨Nat.find hsome, ws[Nat.find hsome], List.getElem?_eq_getElem hlt, fun i hi => ?_, hnot⟩
  by_contra hi'
  exact Nat.find_min hsome hi ⟨hi.trans hlt, hi'⟩

section

variable {text : String}

theorem loadImage_unaligned (h : ¬ offset.toNat % 4 = 0) :
    m.loadImage text offset = (m, .error (.unalignedOffset offset)) := by
  have hoffset : offset.aligned = false := by
    rw [← Bool.not_eq_true, aligned_iff]
    exact h
  simp [loadImage, hoffset]

theorem loadImage_unread {e : PreloadError} (h : offset.toNat % 4 = 0)
    (hparse : parseImage text = .error e) : m.loadImage text offset = (m, .error e) := by
  simp [loadImage, (aligned_iff offset).mpr h, hparse]

theorem loadImage_misplaced {k : Nat} (h : offset.toNat % 4 = 0) (hparse : parseImage text = .ok ws)
    (hk : ws[k]? = some w) (hbefore : ∀ i < k, Maps m.lo m.hi (offset.toNat + 4 * i))
    (hnot : ¬ Maps m.lo m.hi (offset.toNat + 4 * k)) :
    m.loadImage text offset = (m, .error (m.misplaced (offset.toNat + 4 * k) w)) := by
  have hallot : m.allot offset 0 ws = .error (m.misplaced (offset.toNat + 4 * (0 + k)) w) :=
    allot_misplaced hk (by simpa using hbefore) (by simpa using hnot)
  rw [Nat.zero_add] at hallot
  simp [loadImage, (aligned_iff offset).mpr h, hparse, hallot]

theorem loadImage_ok (h : offset.toNat % 4 = 0) (hparse : parseImage text = .ok ws)
    (hfits : m.Fits offset ws) :
    ∃ m', m.loadImage text offset = (m', .ok ws.length) ∧ m.Like m' ∧
      ∀ a : Word, m'.words[a]? = (wordPut offset.toNat ws a.toNat).or m.words[a]? := by
  have hmaps : ∀ i < ws.length, Maps m.lo m.hi (offset.toNat + 4 * (0 + i)) := by
    simpa using fits_iff.mp hfits
  obtain ⟨m', hall, hlike, hwords⟩ := storeAll_spread h hmaps
  refine ⟨m', ?_, hlike, hwords⟩
  simp [loadImage, (aligned_iff offset).mpr h, hparse, allot_ok hmaps, hall, length_spread]

theorem loadImage_like (m : Memory) (text : String) (offset : Word) :
    m.Like (m.loadImage text offset).1 := by
  unfold loadImage
  split
  next => exact ⟨rfl, rfl, rfl⟩
  next =>
    split
    next => exact ⟨rfl, rfl, rfl⟩
    next ws _ =>
      cases m.allot offset 0 ws with
      | error e => exact ⟨rfl, rfl, rfl⟩
      | ok ps =>
        have hlike := storeAll_like m ps
        rcases hall : m.storeAll ps with ⟨m₁, e | u⟩ <;> simpa [hall] using hlike

theorem preload_like {n : Nat} (h : m.preload text offset = .ok (m', n)) : m.Like m' := by
  have hlike := loadImage_like m text offset
  unfold preload at h
  rcases hload : m.loadImage text offset with ⟨m₁, e | n₁⟩
  · rw [hload] at h
    cases h
  · rw [hload] at h hlike
    cases h
    exact hlike

/-- A memory with an image in it: each word is at its address, and all else is as it was. -/
structure Loaded (m m' : Memory) (offset : Word) (ws : List ImageWord) : Prop where
  like : m.Like m'
  placed : ∀ k w, ws[k]? = some w →
    ∃ a : Word, a.toNat = offset.toNat + 4 * k ∧ m'.load a = .ok w.word
  kept : ∀ a : Word, (∀ k < ws.length, a.toNat ≠ offset.toNat + 4 * k) →
    m'.words[a]? = m.words[a]? ∧ m'.load a = m.load a

theorem Like.check_eq (h : m.Like m') (a : Word) : m'.check a = m.check a := by
  unfold check contains
  rw [h.lo, h.hi]

theorem loaded_of_words (h : offset.toNat % 4 = 0) (hfits : m.Fits offset ws) (hlike : m.Like m')
    (hwords : ∀ a : Word, m'.words[a]? = (wordPut offset.toNat ws a.toNat).or m.words[a]?) :
    m.Loaded m' offset ws where
  like := hlike
  placed := by
    intro k w hk
    have hlt : k < ws.length := (List.getElem?_eq_some_iff.mp hk).1
    have hmaps := fits_iff.mp hfits k hlt
    have haddr := UInt32.toNat_ofNat_of_lt' hmaps.lt_size
    have hput : wordPut offset.toNat ws (offset.toNat + 4 * k) = some w.word := by
      rw [wordPut, if_pos (by omega), show (offset.toNat + 4 * k - offset.toNat) / 4 = k by omega,
        hk]
      rfl
    have hcheck : m'.check (.ofNat (offset.toNat + 4 * k)) = .ok () := by
      rw [hlike.check_eq]
      exact check_ok (by rw [haddr]; omega) (by rw [haddr]; exact hmaps)
    refine ⟨.ofNat (offset.toNat + 4 * k), haddr, ?_⟩
    rw [load, hcheck, word, Std.ExtTreeMap.getD_eq_getD_getElem?, hwords, haddr, hput]
    rfl
  kept := by
    intro a ha
    have hnone : wordPut offset.toNat ws a.toNat = none := by
      unfold wordPut
      split
      next hat =>
        rw [List.getElem?_eq_none, Option.map_none]
        by_contra hlt
        exact ha ((a.toNat - offset.toNat) / 4) (by omega) (by omega)
      next => rfl
    have hsame : m'.words[a]? = m.words[a]? := by rw [hwords, hnone, Option.none_or]
    refine ⟨hsame, ?_⟩
    simp only [load, hlike.check_eq, word, Std.ExtTreeMap.getD_eq_getD_getElem?, hsame, hlike.fill]

/-- The four ways in which loading an image may end. -/
theorem loadImage_cases (m : Memory) (text : String) (offset : Word) :
    (offset.toNat % 4 ≠ 0 ∧ m.loadImage text offset = (m, .error (.unalignedOffset offset))) ∨
    (offset.toNat % 4 = 0 ∧ ∃ line content, parseImage text = .error (.malformed line content) ∧
      m.loadImage text offset = (m, .error (.malformed line content))) ∨
    (offset.toNat % 4 = 0 ∧ ∃ ws k w, parseImage text = .ok ws ∧ ¬ m.Fits offset ws ∧
      ws[k]? = some w ∧ (∀ i < k, Maps m.lo m.hi (offset.toNat + 4 * i)) ∧
      ¬ Maps m.lo m.hi (offset.toNat + 4 * k) ∧
      m.loadImage text offset = (m, .error (m.misplaced (offset.toNat + 4 * k) w))) ∨
    (offset.toNat % 4 = 0 ∧ ∃ ws m', parseImage text = .ok ws ∧ m.Fits offset ws ∧
      m.loadImage text offset = (m', .ok ws.length) ∧ m.Loaded m' offset ws) := by
  by_cases h : offset.toNat % 4 = 0
  · cases hparse : parseImage text with
    | error e =>
      obtain ⟨before, l, after, -, -, -, rfl⟩ := imageWords_eq_error_iff.mp hparse
      exact .inr (.inl ⟨h, _, _, rfl, loadImage_unread h hparse⟩)
    | ok ws =>
      by_cases hfits : m.Fits offset ws
      · obtain ⟨m', hload, hlike, hwords⟩ := loadImage_ok h hparse hfits
        have hloaded := loaded_of_words h hfits hlike hwords
        exact .inr (.inr (.inr ⟨h, ws, m', rfl, hfits, hload, hloaded⟩))
      · obtain ⟨k, w, hk, hbefore, hnot⟩ := exists_first_misplaced hfits
        have hload := loadImage_misplaced h hparse hk hbefore hnot
        exact .inr (.inr (.inl ⟨h, ws, k, w, rfl, hfits, hk, hbefore, hnot, hload⟩))
  · exact .inl ⟨h, loadImage_unaligned h⟩

theorem storeAll_allotted {ps : List (Word × ImageWord)} (h : offset.toNat % 4 = 0)
    (hallot : m.allot offset 0 ws = .ok ps) : (m.storeAll ps).2 = .ok () := by
  by_cases hfits : m.Fits offset ws
  · have hmaps : ∀ i < ws.length, Maps m.lo m.hi (offset.toNat + 4 * (0 + i)) := by
      simpa using fits_iff.mp hfits
    obtain ⟨m', hall, -⟩ := storeAll_spread h hmaps
    rw [allot_ok hmaps] at hallot
    cases hallot
    rw [hall]
  · obtain ⟨k, w, hk, hbefore, hnot⟩ := exists_first_misplaced hfits
    have hrefused : m.allot offset 0 ws = .error (m.misplaced (offset.toNat + 4 * (0 + k)) w) :=
      allot_misplaced hk (by simpa using hbefore) (by simpa using hnot)
    cases hrefused.symm.trans hallot

end

/-- An image is refused for its offset, else for its text, else for the first of its words whose
address is not mapped or does not exist, and then leaves memory alone; else all of its words are
stored. What passes the check of the addresses is stored without fail. -/
theorem loads_all_or_nothing (m : Memory) (text : String) (offset : Word) :
    (∀ o, (m.loadImage text offset).2 = .error (.unalignedOffset o) ↔
      o = offset ∧ offset.toNat % 4 ≠ 0) ∧
    (∀ line content, (m.loadImage text offset).2 = .error (.malformed line content) ↔
      offset.toNat % 4 = 0 ∧ parseImage text = .error (.malformed line content)) ∧
    (∀ e, parseImage text = .error e → ∃ line content, e = .malformed line content) ∧
    (offset.toNat % 4 = 0 → ∀ ws, parseImage text = .ok ws →
      ((m.loadImage text offset).2 = .ok ws.length ↔ m.Fits offset ws) ∧
      (m.Fits offset ws → m.Loaded (m.loadImage text offset).1 offset ws) ∧
      (¬ m.Fits offset ws → ∃ k w, ws[k]? = some w ∧
        (∀ i < k, Maps m.lo m.hi (offset.toNat + 4 * i)) ∧
        ¬ Maps m.lo m.hi (offset.toNat + 4 * k) ∧
        (m.loadImage text offset).2 = .error (m.misplaced (offset.toNat + 4 * k) w))) ∧
    (∀ ws ps, offset.toNat % 4 = 0 → m.allot offset 0 ws = .ok ps →
      (m.storeAll ps).2 = .ok ()) ∧
    ∀ e, (m.loadImage text offset).2 = .error e → (m.loadImage text offset).1 = m := by
  have hmalformed : ∀ e, parseImage text = .error e →
      ∃ line content, e = .malformed line content := by
    intro e he
    obtain ⟨before, l, after, -, -, -, rfl⟩ := imageWords_eq_error_iff.mp he
    exact ⟨_, _, rfl⟩
  have hplace : ∀ addr w, (∀ o, m.misplaced addr w ≠ .unalignedOffset o) ∧
      ∀ line content, m.misplaced addr w ≠ .malformed line content := by
    intro addr w
    unfold misplaced
    split <;> exact ⟨nofun, nofun⟩
  rcases loadImage_cases m text offset with ⟨h, hload⟩ | ⟨h, line, content, hparse, hload⟩ |
    ⟨h, ws, k, w, hparse, hfits, hk, hbefore, hnot, hload⟩ | ⟨h, ws, m', hparse, hfits, hload, hall⟩
  all_goals
    rw [hload]
    refine ⟨?_, ?_, hmalformed, ?_, fun ws ps h hallot => storeAll_allotted h hallot, ?_⟩
  · simp [h, eq_comm]
  · simp [h]
  · exact fun h' => absurd h' h
  · simp
  · simp [h]
  · simp [h, hparse]
  · simp [hparse]
  · simp
  · simp [h, (hplace _ w).1]
  · simp [hparse, (hplace _ w).2]
  · intro _ ws' hws'
    cases hparse.symm.trans hws'
    exact ⟨by simp [hfits], fun hfits' => absurd hfits' hfits,
      fun _ => ⟨k, w, hk, hbefore, hnot, rfl⟩⟩
  · simp
  · simp [h]
  · simp [hparse]
  · intro _ ws' hws'
    cases hparse.symm.trans hws'
    exact ⟨by simp [hfits], fun _ => hall, fun hfits' => absurd hfits hfits'⟩
  · simp

end Memory

end BusBench

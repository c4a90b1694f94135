import BusBench.Proofs.Preload
import BusBench.Proofs.Service
import Mathlib.Data.List.Induction

namespace BusBench

namespace Memory

variable {m m' : Memory} {addr a : Nat}

/-- The byte at a byte address, whether or not it may be accessed. -/
def byte (m : Memory) (a : Nat) : Nat := (m.word (.ofNat (a / 4 * 4))).byte (a % 4)

theorem byte_insert {w value : Word} (ha : a / 4 * 4 < UInt32.size) :
    ({ m with words := m.words.insert w value } : Memory).byte a =
      if a / 4 * 4 = w.toNat then value.byte (a % 4) else m.byte a := by
  have hw : compare w (.ofNat (a / 4 * 4)) = .eq ↔ a / 4 * 4 = w.toNat := by
    rw [Std.compare_eq_iff_eq, ← UInt32.toNat_inj, UInt32.toNat_ofNat', Nat.mod_eq_of_lt ha,
      eq_comm]
  simp only [byte, word, Std.ExtTreeMap.getD_insert, hw]
  split <;> rfl

theorem contains_align {addr : Word} :
    m.contains (addr / 4 * 4) = true ↔ Maps m.lo m.hi (addr.toNat / 4 * 4) := by
  rw [contains_iff, toNat_div_mul]

theorem write_like (m : Memory) (addr data : Word) (strobe : UInt8) :
    m.Like (m.write addr data strobe) := by
  unfold write
  split <;> exact ⟨rfl, rfl, rfl⟩

theorem write_byte {addr data : Word} {strobe : UInt8} (ha : a / 4 * 4 < UInt32.size)
    (h : Maps m.lo m.hi (addr.toNat / 4 * 4)) :
    (m.write addr data strobe).byte a =
      if a / 4 * 4 = addr.toNat / 4 * 4 ∧ strobe.toNat.testBit (a % 4) then data.byte (a % 4)
      else m.byte a := by
  have hc : m.contains (addr / 4 * 4) = true := contains_align.mpr h
  rw [write, if_pos hc, byte_insert ha, toNat_div_mul]
  by_cases hword : a / 4 * 4 = addr.toNat / 4 * 4
  · have hsame : UInt32.ofNat (a / 4 * 4) = addr / 4 * 4 := by
      rw [← UInt32.toNat_inj, UInt32.toNat_ofNat_of_lt' ha, toNat_div_mul, hword]
    rw [if_pos hword, ← merge_eq_splice, merge_byte _ _ _ (Nat.mod_lt a (by decide)), read,
      if_pos hc, byte, hsame]
    simp only [hword, true_and]
    rfl
  · rw [if_neg hword, if_neg fun hboth => hword hboth.1]

/-- The byte that words placed from a number on put at a byte address. -/
def placed (addr : Nat) (ws : List ImageWord) (a : Nat) : Option Nat :=
  if addr ≤ a then (ws[(a - addr) / 4]?).map fun w => w.word.byte (a % 4) else none

theorem placed_eq (haddr : addr % 4 = 0) (ws : List ImageWord) (a : Nat) :
    placed addr ws a = (wordPut addr ws (a / 4 * 4)).map (·.byte (a % 4)) := by
  unfold placed wordPut
  by_cases h : addr ≤ a
  · rw [if_pos h, if_pos (by omega), show (a / 4 * 4 - addr) / 4 = (a - addr) / 4 by omega,
      Option.map_map]
    rfl
  · rw [if_neg h, if_neg (by omega)]
    rfl

/-- The bytes of a memory whose words are those of another but for the words placed in it. -/
theorem byte_placed {ws : List ImageWord} (haddr : addr % 4 = 0) (hlike : m.Like m')
    (hwords : ∀ a : Word, m'.words[a]? = (wordPut addr ws a.toNat).or m.words[a]?)
    (ha : a / 4 * 4 < UInt32.size) : m'.byte a = (placed addr ws a).getD (m.byte a) := by
  have hword := hwords (.ofNat (a / 4 * 4))
  rw [UInt32.toNat_ofNat_of_lt' ha] at hword
  simp only [byte, word, Std.ExtTreeMap.getD_eq_getD_getElem?, hword, hlike.fill, placed_eq haddr]
  cases wordPut addr ws (a / 4 * 4) <;> rfl

end Memory

/-- An operation on the memory of a bus: a word stored, an image loaded, or a rising edge with
any pins. -/
inductive Access where
  | store (addr word : Word)
  | preload (text : String) (offset : Word)
  | edge (tick : Nat) (pins : Pins)

namespace Access

variable {b : Bus} {lo hi fill : Word} {a : Nat}

/-- A refused store leaves the bus as it is; an image leaves what loading it leaves. -/
def apply (b : Bus) : Access → Bus
  | .store addr word =>
    match b.memory.store addr word with
    | .ok memory => { b with memory }
    | .error _ => b
  | .preload text offset => { b with memory := (b.memory.loadImage text offset).1 }
  | .edge tick pins => Bus.respond tick { b with pins }

/-- The bus after operations on an empty memory. -/
def run (lo hi fill : Word) (ops : List Access) : Bus :=
  ops.foldl apply ⟨{}, .empty lo hi fill, {}⟩

/-- Whether the memory takes what the operation writes. -/
def succeeds (m : Memory) : Access → Bool
  | .store addr word => (m.store addr word).isOk
  | .preload text offset => (m.loadImage text offset).2.isOk
  | .edge _ p =>
    Bus.writes p && (Bus.mergeStore m p.writeAddr.align p.writeData p.writeStrobe).isOk

/-- The same by the mapped range alone: the words are aligned and mapped, all of them. -/
def accepted (lo hi : Word) : Access → Bool
  | .store addr _ => decide (addr.toNat % 4 = 0 ∧ Memory.Maps lo hi addr.toNat)
  | .preload text offset =>
    match parseImage text with
    | .ok ws =>
      decide (offset.toNat % 4 = 0 ∧ ∀ i < ws.length, Memory.Maps lo hi (offset.toNat + 4 * i))
    | .error _ => false
  | .edge _ p => Bus.writes p && decide (Memory.Maps lo hi (p.writeAddr.toNat / 4 * 4))

/-- The byte that an operation puts at a byte address, if it covers it. A store and an image
cover whole words, a bus write the bytes of its word that the strobe names. -/
def byte? (a : Nat) : Access → Option Nat
  | .store addr word => if a / 4 * 4 = addr.toNat then some (word.byte (a % 4)) else none
  | .preload text offset =>
    match parseImage text with
    | .ok ws => Memory.placed offset.toNat ws a
    | .error _ => none
  | .edge _ p =>
    if a / 4 * 4 = p.writeAddr.toNat / 4 * 4 ∧ p.writeStrobe.toNat.testBit (a % 4) then
      some (p.writeData.byte (a % 4))
    else none

/-- What an operation leaves at a byte address, if it is accepted and covers it. -/
def put? (lo hi : Word) (a : Nat) (op : Access) : Option Nat :=
  if op.accepted lo hi then op.byte? a else none

/-- The byte of the last accepted operation that covers a byte address, or of the fill word. -/
def lastByte (lo hi fill : Word) (ops : List Access) (a : Nat) : Nat :=
  (ops.reverse.findSome? (put? lo hi a)).getD (fill.byte (a % 4))

/-- What an operation does to the memory is what its range and its bytes say. -/
structure Lands (op : Access) (b : Bus) : Prop where
  succeeds : op.succeeds b.memory = op.accepted b.memory.lo b.memory.hi
  like : b.memory.Like (apply b op).memory
  byte : ∀ a, a / 4 * 4 < UInt32.size →
    (apply b op).memory.byte a = (op.put? b.memory.lo b.memory.hi a).getD (b.memory.byte a)

theorem Lands.of_refused {op : Access} (hs : op.succeeds b.memory = false)
    (ha : op.accepted b.memory.lo b.memory.hi = false) (hm : (apply b op).memory = b.memory) :
    op.Lands b := by
  refine ⟨hs.trans ha.symm, ?_, ?_⟩
  · rw [hm]
    exact ⟨rfl, rfl, rfl⟩
  · intro a _
    rw [hm, put?, ha]
    rfl

theorem Lands.of_accepted {op : Access} (hs : op.succeeds b.memory = true)
    (ha : op.accepted b.memory.lo b.memory.hi = true) (hlike : b.memory.Like (apply b op).memory)
    (hbyte : ∀ a, a / 4 * 4 < UInt32.size →
      (apply b op).memory.byte a = (op.byte? a).getD (b.memory.byte a)) :
    op.Lands b := by
  refine ⟨hs.trans ha.symm, hlike, ?_⟩
  intro a hsize
  rw [hbyte a hsize, put?, if_pos ha]

theorem store_lands (b : Bus) (addr word : Word) : (store addr word).Lands b := by
  by_cases h : addr.toNat % 4 = 0 ∧ Memory.Maps b.memory.lo b.memory.hi addr.toNat
  · have hstore := Memory.store_ok word h.1 h.2
    apply Lands.of_accepted
    · simp only [succeeds, hstore]
      rfl
    · exact decide_eq_true h
    · simp only [apply, hstore]
      exact ⟨rfl, rfl, rfl⟩
    · intro a ha
      simp only [apply, hstore, Memory.byte_insert ha, byte?]
      split <;> rfl
  · obtain ⟨e, he⟩ := Memory.store_refused word h
    apply Lands.of_refused
    · simp only [succeeds, he]
      rfl
    · exact decide_eq_false h
    · simp only [apply, he]

/-- An image is accepted and all of its words are stored, or it is refused and the memory is as it
was. -/
theorem preload_cases (b : Bus) (text : String) (offset : Word) :
    ((preload text offset).accepted b.memory.lo b.memory.hi = true ∧ offset.toNat % 4 = 0 ∧
      ∃ ws m, parseImage text = .ok ws ∧ b.memory.Fits offset ws ∧
        b.memory.loadImage text offset = (m, .ok ws.length) ∧ b.memory.Like m ∧
        ∀ a : Word, m.words[a]? =
          (Memory.wordPut offset.toNat ws a.toNat).or b.memory.words[a]?) ∨
    ((preload text offset).accepted b.memory.lo b.memory.hi = false ∧
      ∃ e, b.memory.loadImage text offset = (b.memory, .error e)) := by
  by_cases hmod : offset.toNat % 4 = 0
  · cases hparse : parseImage text with
    | error e =>
      refine .inr ⟨?_, e, Memory.loadImage_unread hmod hparse⟩
      simp only [accepted, hparse]
    | ok ws =>
      by_cases hfits : b.memory.Fits offset ws
      · obtain ⟨m, hload, hlike, hwords⟩ := Memory.loadImage_ok hmod hparse hfits
        refine .inl ⟨?_, hmod, ws, m, rfl, hfits, hload, hlike, hwords⟩
        simp only [accepted, hparse]
        exact decide_eq_true ⟨hmod, Memory.fits_iff.mp hfits⟩
      · obtain ⟨k, w, hk, hbefore, hnot⟩ := Memory.exists_first_misplaced hfits
        refine .inr ⟨?_, b.memory.misplaced (offset.toNat + 4 * k) w,
          Memory.loadImage_misplaced hmod hparse hk hbefore hnot⟩
        simp only [accepted, hparse]
        exact decide_eq_false (fun h => hfits (Memory.fits_iff.mpr h.2))
  · refine .inr ⟨?_, .unalignedOffset offset, Memory.loadImage_unaligned hmod⟩
    simp only [accepted]
    split
    · exact decide_eq_false (fun h => hmod h.1)
    · rfl

theorem preload_lands (b : Bus) (text : String) (offset : Word) :
    (preload text offset).Lands b := by
  rcases preload_cases b text offset with
    ⟨ha, hmod, ws, m, hparse, -, hload, hlike, hwords⟩ | ⟨ha, e, he⟩
  · apply Lands.of_accepted _ ha
    · simpa only [apply, hload] using hlike
    · intro a hsize
      simpa only [apply, hload, byte?, hparse] using Memory.byte_placed hmod hlike hwords hsize
    · simp only [succeeds, hload]
      rfl
  · apply Lands.of_refused _ ha
    · simp only [apply, he]
    · simp only [succeeds, he]
      rfl

theorem edge_lands (b : Bus) (tick : Nat) (p : Pins) : (edge tick p).Lands b := by
  have hmem := Bus.respond_memory tick { b with pins := p }
  have hmerge := Memory.mergeStore_align b.memory p.writeAddr p.writeData p.writeStrobe
  cases hw : Bus.writes p with
  | false =>
    apply Lands.of_refused
    · simp only [succeeds, hw, Bool.false_and]
    · simp only [accepted, hw, Bool.false_and]
    · rw [apply, hmem, if_neg (ne_true_of_eq_false hw)]
  | true =>
    simp only [hw, if_true] at hmem
    by_cases hmaps : Memory.Maps b.memory.lo b.memory.hi (p.writeAddr.toNat / 4 * 4)
    · rw [if_pos (Memory.contains_align.mpr hmaps)] at hmerge
      apply Lands.of_accepted
      · simp only [succeeds, hw, hmerge]
        rfl
      · simp only [accepted, hw, Bool.true_and, decide_eq_true hmaps]
      · rw [apply, hmem]
        exact Memory.write_like ..
      · intro a ha
        rw [apply, hmem, Memory.write_byte ha hmaps, byte?]
        split <;> rfl
    · have hc : ¬ b.memory.contains (p.writeAddr / 4 * 4) = true :=
        fun hc => hmaps (Memory.contains_align.mp hc)
      rw [if_neg hc] at hmerge
      apply Lands.of_refused
      · simp only [succeeds, hw, hmerge]
        rfl
      · simp only [accepted, hw, Bool.true_and, decide_eq_false hmaps]
      · rw [apply, hmem, Memory.write, if_neg hc]

theorem lands (b : Bus) (op : Access) : op.Lands b := by
  cases op with
  | store addr word => exact store_lands b addr word
  | preload text offset => exact preload_lands b text offset
  | edge tick pins => exact edge_lands b tick pins

/-- The bytes of a memory that operations were run on, and its range. -/
structure Holds (lo hi fill : Word) (ops : List Access) (m : Memory) : Prop where
  lo_eq : m.lo = lo
  hi_eq : m.hi = hi
  fill_eq : m.fill = fill
  byte : ∀ a, a / 4 * 4 < UInt32.size → m.byte a = lastByte lo hi fill ops a

theorem run_concat (lo hi fill : Word) (ops : List Access) (op : Access) :
    run lo hi fill (ops ++ [op]) = apply (run lo hi fill ops) op := by
  simp [run]

theorem lastByte_concat (lo hi fill : Word) (ops : List Access) (op : Access) (a : Nat) :
    lastByte lo hi fill (ops ++ [op]) a =
      (op.put? lo hi a).getD (lastByte lo hi fill ops a) := by
  unfold lastByte
  rw [List.reverse_append, List.reverse_singleton, List.singleton_append, List.findSome?_cons]
  cases op.put? lo hi a <;> rfl

theorem run_holds (lo hi fill : Word) (ops : List Access) :
    Holds lo hi fill ops (run lo hi fill ops).memory := by
  -- The last operation decides, so the induction takes operations off the end.
  induction ops using List.reverseRecOn with
  | nil =>
    refine ⟨rfl, rfl, rfl, ?_⟩
    intro a _
    simp [run, Memory.byte, Memory.word, Memory.empty, lastByte]
  | append_singleton ops op ih =>
    have hland := lands (run lo hi fill ops) op
    rw [run_concat]
    refine ⟨hland.like.lo.trans ih.lo_eq, hland.like.hi.trans ih.hi_eq,
      hland.like.fill.trans ih.fill_eq, ?_⟩
    intro a ha
    rw [hland.byte a ha, ih.lo_eq, ih.hi_eq, ih.byte a ha, lastByte_concat]

/-- Every mapped word that operations leave behind is made of the bytes that were put last, an
operation is refused exactly where its words are not all mapped, and a rising edge that reads
finds the word as it was before what the edge writes. -/
theorem loads_last_bytes (lo hi fill : Word) (ops : List Access) :
    (∀ addr : Word, addr.toNat % 4 = 0 → lo ≤ addr → addr ≤ hi →
      ∃ w, (run lo hi fill ops).memory.load addr = .ok w ∧
        ∀ n < 4, w.byte n = lastByte lo hi fill ops (addr.toNat + n)) ∧
    (∀ op : Access, op.succeeds (run lo hi fill ops).memory = op.accepted lo hi) ∧
    ∀ tick p, p.readAddrValid = true →
      (run lo hi fill (ops ++ [edge tick p])).pins.readData =
        match (run lo hi fill ops).memory.load p.readAddr.align with
        | .ok w => w
        | .error _ => fill := by
  have hrun := run_holds lo hi fill ops
  refine ⟨?_, ?_, ?_⟩
  · intro addr haddr hlo hhi
    have hcheck : (run lo hi fill ops).memory.check addr = .ok () := by
      apply Memory.check_ok haddr
      rw [hrun.lo_eq, hrun.hi_eq]
      exact ⟨UInt32.le_iff_toNat_le.mp hlo, UInt32.le_iff_toNat_le.mp hhi⟩
    refine ⟨(run lo hi fill ops).memory.word addr, by rw [Memory.load, hcheck]; rfl, ?_⟩
    intro n hn
    have hlt := addr.toNat_lt
    have hword : (addr.toNat + n) / 4 * 4 = addr.toNat := by omega
    have hlane : (addr.toNat + n) % 4 = n := by omega
    rw [← hrun.byte (addr.toNat + n) (by rw [hword]; exact hlt), Memory.byte, hword, hlane,
      UInt32.ofNat_toNat]
  · intro op
    have hsucceeds := (lands (run lo hi fill ops) op).succeeds
    rwa [hrun.lo_eq, hrun.hi_eq] at hsucceeds
  · intro tick p hr
    have hpins := Bus.respond_pins tick { run lo hi fill ops with pins := p }
    rw [run_concat, apply, hpins]
    simp only [hr, if_true, Memory.load_align]
    by_cases hc : (run lo hi fill ops).memory.contains (p.readAddr / 4 * 4) = true
    · rw [if_pos hc]
    · rw [if_neg hc, Memory.read, if_neg hc, hrun.fill_eq]

/-- An image, a write at an odd address with high strobe bits, three refused operations and a
write of one byte. -/
def mixture : List Access :=
  [.preload "aabbccdd\n0x55667788" 0x104,
    .edge 3 { writeAddrValid := true, writeDataValid := true, writeAddr := 0x107,
              writeData := 0x01020304, writeStrobe := 0xf5 },
    .store 0x102 7, .store 0x10c 7, .preload "1\n2" 0x108,
    .edge 5 { writeAddrValid := true, writeDataValid := true, writeAddr := 0x100,
              writeData := 0xee000000, writeStrobe := 0x18 }]

/-- A read and a write of one word on the same edge. -/
def swap : Pins :=
  { readAddrValid := true, readAddr := 0x103, writeAddrValid := true, writeDataValid := true,
    writeAddr := 0x100, writeData := 0x99999999, writeStrobe := 0x0f }

theorem loads_last_bytes_of_mixture :
    (∃ w, (run 0x100 0x10b 0x11223344 mixture).memory.load 0x104 = .ok w ∧
      [w.byte 0, w.byte 1, w.byte 2, w.byte 3] = [0x04, 0xcc, 0x02, 0xaa]) ∧
    (preload "1\n2" 0x108).succeeds (run 0x100 0x10b 0x11223344 mixture).memory = false ∧
    (run 0x100 0x10b 0x11223344 (mixture ++ [edge 7 swap])).pins.readData = 0xee223344 := by
  obtain ⟨hload, haccept, hread⟩ := loads_last_bytes 0x100 0x10b 0x11223344 mixture
  refine ⟨?_, ?_, ?_⟩
  · obtain ⟨w, hw, hbyte⟩ := hload 0x104 rfl (by decide) (by decide)
    refine ⟨w, hw, ?_⟩
    rw [hbyte 0 (by decide), hbyte 1 (by decide), hbyte 2 (by decide), hbyte 3 (by decide)]
    decide +kernel
  · rw [haccept]
    rfl
  · rw [hread 7 swap rfl]
    rfl

end Access

end BusBench

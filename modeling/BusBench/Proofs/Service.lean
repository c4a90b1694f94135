import BusBench.Bus
import BusBench.Proofs.Lanes

namespace BusBench

namespace Memory

/-- The word that a bus access to an address finds: the fill word where nothing is mapped. -/
def read (m : Memory) (addr : Word) : Word :=
  if m.contains (addr / 4 * 4) then m.words.getD (addr / 4 * 4) m.fill else m.fill

/-- Puts the bytes that a strobe names into the word at an address, if it is mapped. -/
def write (m : Memory) (addr data : Word) (strobe : UInt8) : Memory :=
  if m.contains (addr / 4 * 4) then
    { m with words := m.words.insert (addr / 4 * 4) ((m.read addr).splice data strobe) }
  else m

theorem load_align (m : Memory) (addr : Word) :
    m.load addr.align =
      if m.contains (addr / 4 * 4) then .ok (m.read addr)
      else .error (.outOfRange addr.align m.lo m.hi) := by
  unfold load check read
  rw [align_aligned, align_eq]
  by_cases h : m.contains (addr / 4 * 4) = true
  · simp [h, word, Except.map]
  · simp [h, Except.map]

theorem mergeStore_align (m : Memory) (addr data : Word) (strobe : UInt8) :
    Bus.mergeStore m addr.align data strobe =
      if m.contains (addr / 4 * 4) then .ok (m.write addr data strobe)
      else .error (.outOfRange addr.align m.lo m.hi) := by
  unfold Bus.mergeStore
  rw [load_align]
  by_cases h : m.contains (addr / 4 * 4) = true
  · simp only [h, if_true]
    unfold store check write
    rw [align_aligned, align_eq, merge_eq_splice]
    simp [h, Except.map]
  · simp only [h]
    rfl

end Memory

namespace Bus

/-- A write is pending when its address and its data are. -/
def writes (p : Pins) : Bool := p.writeAddrValid && p.writeDataValid

theorem serveRead_eq (t : Nat) (b : Bus) :
    (serveRead t b).memory = b.memory ∧
      (serveRead t b).pins =
        (if b.pins.readAddrValid then
          { b.pins with readAddrReady := true, readDataValid := true,
                        readData := b.memory.read b.pins.readAddr }
        else b.pins) ∧
      (serveRead t b).stats.reads = b.stats.reads + b.pins.readAddrValid.toNat ∧
      (serveRead t b).stats.writes = b.stats.writes := by
  unfold serveRead
  cases hv : b.pins.readAddrValid with
  | false => simp
  | true =>
    simp only [if_true, Memory.load_align]
    by_cases h : b.memory.contains (b.pins.readAddr / 4 * 4) = true
    · simp [h, answerRead]
    · simp [h, answerRead, refuse, Memory.read]

theorem serveWrite_eq (t : Nat) (b : Bus) :
    (serveWrite t b).memory =
        (if writes b.pins then b.memory.write b.pins.writeAddr b.pins.writeData b.pins.writeStrobe
        else b.memory) ∧
      (serveWrite t b).pins =
        (if writes b.pins then
          { b.pins with writeAddrReady := true, writeDataReady := true, writeRespValid := true }
        else b.pins) ∧
      (serveWrite t b).stats.reads = b.stats.reads ∧
      (serveWrite t b).stats.writes = b.stats.writes + (writes b.pins).toNat := by
  unfold serveWrite
  cases hv : writes b.pins with
  | false =>
    rw [writes] at hv
    simp [hv]
  | true =>
    have hw := hv
    rw [writes] at hw
    simp only [hw, if_true, Memory.mergeStore_align]
    by_cases h : b.memory.contains (b.pins.writeAddr / 4 * 4) = true
    · simp [h, answerWrite]
    · simp [h, answerWrite, refuse, Memory.write]

/-- The pins after a rising edge: requests stay, responses answer the requests of this edge. -/
theorem respond_pins (t : Nat) (b : Bus) :
    (respond t b).pins =
      { b.pins with
        readAddrReady := b.pins.readAddrValid
        readDataValid := b.pins.readAddrValid
        readData := if b.pins.readAddrValid then b.memory.read b.pins.readAddr else b.pins.readData
        writeAddrReady := writes b.pins
        writeDataReady := writes b.pins
        writeRespValid := writes b.pins } := by
  obtain ⟨_, hp, _⟩ := serveRead_eq t { b with pins := b.pins.clearResponses }
  obtain ⟨_, hq, _⟩ := serveWrite_eq t (serveRead t { b with pins := b.pins.clearResponses })
  have hw : writes (serveRead t { b with pins := b.pins.clearResponses }).pins = writes b.pins := by
    rw [hp]
    split <;> rfl
  rw [respond, hq, hw, hp]
  cases hr : b.pins.readAddrValid <;> cases writes b.pins <;> simp [Pins.clearResponses, hr]

theorem respond_memory (t : Nat) (b : Bus) :
    (respond t b).memory =
      if writes b.pins then b.memory.write b.pins.writeAddr b.pins.writeData b.pins.writeStrobe
      else b.memory := by
  obtain ⟨hm, hp, _⟩ := serveRead_eq t { b with pins := b.pins.clearResponses }
  obtain ⟨hn, _⟩ := serveWrite_eq t (serveRead t { b with pins := b.pins.clearResponses })
  rw [respond, hn, hm, hp]
  cases hr : b.pins.readAddrValid <;> simp [Pins.clearResponses, hr, writes]

theorem respond_reads (t : Nat) (b : Bus) :
    (respond t b).stats.reads = b.stats.reads + b.pins.readAddrValid.toNat := by
  obtain ⟨_, _, hr, _⟩ := serveRead_eq t { b with pins := b.pins.clearResponses }
  obtain ⟨_, _, hw, _⟩ := serveWrite_eq t (serveRead t { b with pins := b.pins.clearResponses })
  rw [respond, hw, hr]
  rfl

theorem respond_writes (t : Nat) (b : Bus) :
    (respond t b).stats.writes = b.stats.writes + (writes b.pins).toNat := by
  obtain ⟨_, hp, _, hr⟩ := serveRead_eq t { b with pins := b.pins.clearResponses }
  obtain ⟨_, _, _, hw⟩ := serveWrite_eq t (serveRead t { b with pins := b.pins.clearResponses })
  rw [respond, hw, hr, hp]
  cases hv : b.pins.readAddrValid <;> simp [Pins.clearResponses, hv, writes]

end Bus

end BusBench

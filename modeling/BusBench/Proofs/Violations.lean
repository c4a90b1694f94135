import BusBench.Proofs.ByteHistory
import BusBench.Proofs.Constraints

namespace BusBench

namespace Memory

variable {m : Memory} {lo hi : Word}

/-- A range that starts and ends with whole words. -/
structure WholeWords (lo hi : Word) : Prop where
  lo : lo.toNat % 4 = 0
  hi : hi.toNat % 4 = 3

/-- A byte of such a range is in it with its whole word. -/
theorem WholeWords.maps_align_iff (h : WholeWords lo hi) (a : Nat) :
    Maps lo hi (a / 4 * 4) ↔ Maps lo hi a := by
  obtain ⟨hlo, hhi⟩ := h
  -- rounding down does not pass `lo`, and does not bring anything above `hi` to it
  unfold Maps
  omega

theorem WholeWords.contains_align_iff (h : WholeWords m.lo m.hi) (addr : Word) :
    m.contains (addr / 4 * 4) = true ↔ Maps m.lo m.hi addr.toNat := by
  rw [contains_align, h.maps_align_iff]

theorem WholeWords.like {m' : Memory} (h : WholeWords m.lo m.hi) (hlike : m.Like m') :
    WholeWords m'.lo m'.hi := by
  rwa [hlike.lo, hlike.hi]

end Memory

theorem Config.Sound.wholeWords {c : Config} (h : c.Sound) :
    Memory.WholeWords c.memory.lo c.memory.hi := by
  refine ⟨(aligned_iff _).mp h.lo, ?_⟩
  rw [← toNat_and_three, h.hi]
  rfl

namespace Bus

open Memory (Maps WholeWords)

/-- A rising edge with the levels on the pins when it comes. -/
structure RisingEdge where
  tick : Nat
  pins : Pins

/-- What a request adds to the record: nothing where its address is mapped. -/
def refusals (lo hi : Word) (tick : Nat) (channel : Channel) (requested : Bool) (addr : Word) :
    List Violation :=
  if requested = true ∧ ¬ Maps lo hi addr.toNat then
    [⟨tick, channel, addr.align, .outOfRange addr.align lo hi⟩]
  else []

/-- The read is recorded before the write. -/
def RisingEdge.refusals (lo hi : Word) (e : RisingEdge) : List Violation :=
  Bus.refusals lo hi e.tick .read e.pins.readAddrValid e.pins.readAddr ++
    Bus.refusals lo hi e.tick .write (writes e.pins) e.pins.writeAddr

/-- The bus of a memory after rising edges. -/
def serve (m : Memory) (es : List RisingEdge) : Bus :=
  es.foldl (fun b e => respond e.tick { b with pins := e.pins }) ⟨{}, m, {}⟩

theorem serve_concat (m : Memory) (es : List RisingEdge) (e : RisingEdge) :
    serve m (es ++ [e]) = respond e.tick { serve m es with pins := e.pins } := by
  simp [serve]

variable {m : Memory} {es : List RisingEdge} {b : Bus} {lo hi : Word} {v : Violation}

theorem reason_of_mem_refusals {tick : Nat} {channel : Channel} {requested : Bool} {addr : Word}
    (h : v ∈ refusals lo hi tick channel requested addr) : v.reason = .outOfRange v.addr lo hi := by
  unfold refusals at h
  split at h
  next => rw [List.mem_singleton.mp h]
  next => cases h

theorem serveRead_violations (t : Nat) (h : WholeWords b.memory.lo b.memory.hi) :
    (serveRead t b).stats.violations = b.stats.violations ++
      refusals b.memory.lo b.memory.hi t .read b.pins.readAddrValid b.pins.readAddr := by
  unfold serveRead refusals
  cases hv : b.pins.readAddrValid with
  | false => simp
  | true =>
    simp only [if_true, Memory.load_align, h.contains_align_iff]
    by_cases hm : Maps b.memory.lo b.memory.hi b.pins.readAddr.toNat
    · simp [hm, answerRead]
    · simp [hm, answerRead, refuse]

theorem serveWrite_violations (t : Nat) (h : WholeWords b.memory.lo b.memory.hi) :
    (serveWrite t b).stats.violations = b.stats.violations ++
      refusals b.memory.lo b.memory.hi t .write (writes b.pins) b.pins.writeAddr := by
  unfold serveWrite refusals
  rw [← writes]
  cases hv : writes b.pins with
  | false => simp
  | true =>
    simp only [if_true, Memory.mergeStore_align, h.contains_align_iff]
    by_cases hm : Maps b.memory.lo b.memory.hi b.pins.writeAddr.toNat
    · simp [hm, answerWrite]
    · simp [hm, answerWrite, refuse]

theorem respond_violations (t : Nat) (h : WholeWords b.memory.lo b.memory.hi) :
    (respond t b).stats.violations =
      b.stats.violations ++ RisingEdge.refusals b.memory.lo b.memory.hi ⟨t, b.pins⟩ := by
  obtain ⟨hm, hp, -⟩ := serveRead_eq t { b with pins := b.pins.clearResponses }
  have hread := serveRead_violations t (b := { b with pins := b.pins.clearResponses }) h
  have hwrite := serveWrite_violations t (b := serveRead t { b with pins := b.pins.clearResponses })
    (by rw [hm]; exact h)
  -- the read leaves the request to write as it is
  have hpins : writes (serveRead t { b with pins := b.pins.clearResponses }).pins = writes b.pins ∧
      (serveRead t { b with pins := b.pins.clearResponses }).pins.writeAddr = b.pins.writeAddr := by
    rw [hp]
    split <;> exact ⟨rfl, rfl⟩
  rw [respond, hwrite, hread, hm, hpins.1, hpins.2, List.append_assoc]
  rfl

theorem respond_like (t : Nat) (b : Bus) : b.memory.Like (respond t b).memory := by
  rw [respond_memory]
  split
  next => exact Memory.write_like ..
  next => exact ⟨rfl, rfl, rfl⟩

/-- The counters and the record of a bus are those of the rising edges it has seen. -/
structure Recorded (m : Memory) (es : List RisingEdge) (b : Bus) : Prop where
  like : m.Like b.memory
  reads : b.stats.reads = es.countP fun e => e.pins.readAddrValid
  writes : b.stats.writes = es.countP fun e => Bus.writes e.pins
  violations : b.stats.violations = es.flatMap fun e => e.refusals m.lo m.hi

theorem Recorded.step (hwords : WholeWords m.lo m.hi) (h : Recorded m es b) (e : RisingEdge) :
    Recorded m (es ++ [e]) (respond e.tick { b with pins := e.pins }) where
  like := h.like.trans (respond_like e.tick { b with pins := e.pins })
  reads := by
    rw [respond_reads, List.countP_append, h.reads, List.countP_singleton]
    cases e.pins.readAddrValid <;> rfl
  writes := by
    rw [respond_writes, List.countP_append, h.writes, List.countP_singleton]
    cases Bus.writes e.pins <;> rfl
  violations := by
    rw [respond_violations (b := { b with pins := e.pins }) e.tick (hwords.like h.like),
      List.flatMap_append, h.violations, h.like.lo, h.like.hi, List.flatMap_singleton]

theorem serve_recorded (hwords : WholeWords m.lo m.hi) (es : List RisingEdge) :
    Recorded m es (serve m es) := by
  induction es using List.reverseRecOn with
  | nil => exact ⟨⟨rfl, rfl, rfl⟩, rfl, rfl, rfl⟩
  | append_singleton es e ih =>
    rw [serve_concat]
    exact ih.step hwords e

/-- Every request is counted and answered, and the record tells exactly those whose address is not
mapped. Those read the fill word and write nothing. -/
theorem records_unmapped_requests {c : Config} (hcheck : c.check = .ok ())
    (hlo : m.lo = c.memory.lo) (hhi : m.hi = c.memory.hi) (es : List RisingEdge) :
    (serve m es).stats.reads = (es.countP fun e => e.pins.readAddrValid) ∧
    (serve m es).stats.writes =
      (es.countP fun e => e.pins.writeAddrValid && e.pins.writeDataValid) ∧
    (serve m es).stats.violations = (es.flatMap fun e => e.refusals m.lo m.hi) ∧
    (∀ v ∈ (serve m es).stats.violations, (∀ a, v.reason ≠ .unaligned a) ∧
      v.reason.message = "address " ++ v.addr.hex ++ " is not in the mapped range <" ++ m.lo.hex ++
        ", " ++ m.hi.hex ++ ">") ∧
    ∀ e : RisingEdge,
      (e.pins.readAddrValid = true →
        (serve m (es ++ [e])).pins.readAddrReady = true ∧
        (serve m (es ++ [e])).pins.readDataValid = true ∧
        (¬ Maps m.lo m.hi e.pins.readAddr.toNat →
          (serve m (es ++ [e])).pins.readData = m.fill)) ∧
      (e.pins.writeAddrValid = true → e.pins.writeDataValid = true →
        (serve m (es ++ [e])).pins.writeAddrReady = true ∧
        (serve m (es ++ [e])).pins.writeDataReady = true ∧
        (serve m (es ++ [e])).pins.writeRespValid = true ∧
        (¬ Maps m.lo m.hi e.pins.writeAddr.toNat →
          (serve m (es ++ [e])).memory = (serve m es).memory)) := by
  have hwords : WholeWords m.lo m.hi := by
    rw [hlo, hhi]
    exact (Config.check_eq_ok_iff.mp hcheck).2.2.1.wholeWords
  have hrec := serve_recorded hwords es
  have hunmapped : ∀ addr : Word, ¬ Maps m.lo m.hi addr.toNat →
      ¬ (serve m es).memory.contains (addr / 4 * 4) = true := by
    intro addr hnot
    rwa [(hwords.like hrec.like).contains_align_iff, hrec.like.lo, hrec.like.hi]
  refine ⟨hrec.reads, hrec.writes, hrec.violations, ?_, ?_⟩
  · intro v hv
    rw [hrec.violations] at hv
    obtain ⟨e, -, he⟩ := List.mem_flatMap.mp hv
    have hreason : v.reason = .outOfRange v.addr m.lo m.hi := by
      rcases List.mem_append.mp he with h | h <;> exact reason_of_mem_refusals h
    rw [hreason]
    exact ⟨nofun, rfl⟩
  · intro e
    have hpins := respond_pins e.tick { serve m es with pins := e.pins }
    have hmemory := respond_memory e.tick { serve m es with pins := e.pins }
    rw [serve_concat, hpins, hmemory]
    constructor
    · intro hread
      refine ⟨hread, hread, fun hnot => ?_⟩
      simp only [hread, if_true]
      rw [Memory.read, if_neg (hunmapped _ hnot), hrec.like.fill]
    · intro haddr hdata
      have hwrite : writes e.pins = true := by rw [writes, haddr, hdata]; rfl
      refine ⟨hwrite, hwrite, hwrite, fun hnot => ?_⟩
      simp only [hwrite, if_true]
      rw [Memory.write, if_neg (hunmapped _ hnot)]

/-- Three mapped words. -/
def threeWords : Config where
  run := { passAddr := some 0x100, failAddr := some 0x104 }
  memory := { lo := 0x100, hi := 0x10b }

/-- Requests for the last bytes inside the three words, then for the first bytes outside. -/
def atTheEnds : List RisingEdge :=
  [⟨3, { readAddrValid := true, readAddr := 0x10b, writeAddrValid := true, writeDataValid := true,
         writeAddr := 0x100, writeData := 9, writeStrobe := 0xf }⟩,
    ⟨5, { readAddrValid := true, readAddr := 0x10c, writeAddrValid := true, writeDataValid := true,
          writeAddr := 0xff, writeData := 9, writeStrobe := 0xf }⟩]

theorem records_unmapped_requests_at_the_ends :
    threeWords.check = .ok () ∧
    (serve (.empty 0x100 0x10b 7) atTheEnds).stats.reads = 2 ∧
    (serve (.empty 0x100 0x10b 7) atTheEnds).stats.violations =
      [⟨5, .read, 0x10c, .outOfRange 0x10c 0x100 0x10b⟩,
        ⟨5, .write, 0xfc, .outOfRange 0xfc 0x100 0x10b⟩] := by
  have hcheck : threeWords.check = .ok () := rfl
  obtain ⟨hreads, -, hviolations, -⟩ :=
    records_unmapped_requests (m := .empty 0x100 0x10b 7) hcheck rfl rfl atTheEnds
  refine ⟨hcheck, ?_, ?_⟩
  · rw [hreads]
    decide
  · rw [hviolations]
    decide

end Bus

end BusBench

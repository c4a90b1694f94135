import BusBench.Proofs.ByteHistory
import Mathlib.Data.Finset.Card
import Mathlib.Data.List.Dedup

namespace BusBench

namespace Memory

variable {m : Memory} {addr : Word}

/-- Neither a load nor a store gets at an address, for the same reason. -/
def Refuses (m : Memory) (addr : Word) (e : MemoryError) : Prop :=
  m.load addr = .error e ∧ ∀ value, m.store addr value = .error e

theorem refuses_of_check {e : MemoryError} (h : m.check addr = .error e) : m.Refuses addr e :=
  ⟨by rw [load, h]; rfl, fun value => by rw [store, h]; rfl⟩

/-- Alignment is looked at first. -/
theorem refuses_unaligned (h : addr.toNat % 4 ≠ 0) : m.Refuses addr (.unaligned addr) := by
  have haligned : addr.aligned = false := by
    rw [← Bool.not_eq_true, aligned_iff]
    exact h
  exact refuses_of_check (by simp [check, haligned])

theorem refuses_unmapped (h : addr.toNat % 4 = 0) (hnot : ¬ Maps m.lo m.hi addr.toNat) :
    m.Refuses addr (.outOfRange addr m.lo m.hi) := by
  have hcontains : ¬ m.contains addr = true := fun hc => hnot (contains_iff.mp hc)
  exact refuses_of_check (by simp [check, (aligned_iff addr).mpr h, hcontains])

theorem wordPut_isSome_iff {addr a : Nat} {ws : List ImageWord} :
    (wordPut addr ws a).isSome = true ↔ ∃ i < ws.length, addr + 4 * i = a := by
  unfold wordPut
  constructor
  · intro h
    split at h
    next hat =>
      rw [Option.isSome_map, isSome_getElem?] at h
      exact ⟨(a - addr) / 4, h, by omega⟩
    next => cases h
  · rintro ⟨i, hi, rfl⟩
    rw [if_pos (by omega), show (addr + 4 * i - addr) / 4 = i by omega,
      List.getElem?_eq_getElem hi]
    rfl

end Memory

namespace Access

variable {b : Bus} {lo hi fill a : Word} {op : Access}

/-- The addresses of the words that an operation writes, if it is accepted. A bus write has one
whatever its strobe. -/
def targets : Access → List Word
  | .store addr _ => [addr]
  | .preload text offset =>
    match parseImage text with
    | .ok ws => (List.range ws.length).map fun i => .ofNat (offset.toNat + 4 * i)
    | .error _ => []
  | .edge _ p => if Bus.writes p then [p.writeAddr.align] else []

/-- The addresses that accepted operations write. -/
def hit (lo hi : Word) (ops : List Access) : List Word :=
  (ops.filter (accepted lo hi)).flatMap targets

theorem mem_hit_concat {ops : List Access} : a ∈ hit lo hi (ops ++ [op]) ↔
    a ∈ hit lo hi ops ∨ op.accepted lo hi = true ∧ a ∈ op.targets := by
  unfold hit
  rw [List.filter_append, List.flatMap_append, List.mem_append, List.filter_singleton]
  cases op.accepted lo hi <;> simp

theorem target_of_accepted (h : op.accepted lo hi = true) (ha : a ∈ op.targets) :
    a.toNat % 4 = 0 ∧ Memory.Maps lo hi a.toNat := by
  cases op with
  | store addr word =>
    obtain rfl := List.mem_singleton.mp ha
    exact of_decide_eq_true h
  | preload text offset =>
    cases hparse : parseImage text with
    | error e =>
      simp only [targets, hparse] at ha
      cases ha
    | ok ws =>
      simp only [targets, hparse, List.mem_map, List.mem_range] at ha
      simp only [accepted, hparse, decide_eq_true_iff] at h
      obtain ⟨i, hi, rfl⟩ := ha
      have hat := h.2 i hi
      rw [UInt32.toNat_ofNat_of_lt' hat.lt_size]
      exact ⟨by omega, hat⟩
  | edge tick p =>
    simp only [accepted, Bool.and_eq_true, decide_eq_true_iff] at h
    rw [targets, if_pos h.1, List.mem_singleton] at ha
    rw [ha, align_eq, toNat_div_mul]
    exact ⟨by omega, h.2⟩

theorem mem_insert_iff {m : Memory} {addr value : Word} :
    a ∈ m.words.insert addr value ↔ a ∈ m.words ∨ a = addr := by
  rw [Std.ExtTreeMap.mem_insert, Std.compare_eq_iff_eq, or_comm, eq_comm]

/-- An operation adds its targets to the stored words if it is accepted, and nothing else. -/
theorem mem_words_apply (b : Bus) (op : Access) (a : Word) :
    a ∈ (apply b op).memory.words ↔
      a ∈ b.memory.words ∨ op.accepted b.memory.lo b.memory.hi = true ∧ a ∈ op.targets := by
  cases op with
  | store addr word =>
    by_cases h : addr.toNat % 4 = 0 ∧ Memory.Maps b.memory.lo b.memory.hi addr.toNat
    · have hstore := Memory.store_ok word h.1 h.2
      simp only [apply, hstore, mem_insert_iff, accepted, decide_eq_true h, targets, true_and,
        List.mem_singleton]
    · obtain ⟨e, he⟩ := Memory.store_refused word h
      simp only [apply, he, accepted, decide_eq_false h, Bool.false_eq_true, false_and, or_false]
  | preload text offset =>
    rcases preload_cases b text offset with
      ⟨ha, -, ws, m, hparse, hfits, hload, -, hwords⟩ | ⟨ha, e, he⟩
    · have htarget : a ∈ (preload text offset).targets ↔
          (Memory.wordPut offset.toNat ws a.toNat).isSome = true := by
        simp only [targets, hparse, List.mem_map, List.mem_range, Memory.wordPut_isSome_iff]
        refine exists_congr fun i => and_congr_right fun hi => ?_
        rw [← UInt32.toNat_inj,
          UInt32.toNat_ofNat_of_lt' (Memory.fits_iff.mp hfits i hi).lt_size]
      simp only [apply, hload, ha, htarget, true_and, Std.ExtTreeMap.mem_iff_isSome_getElem?,
        hwords, Option.isSome_or, Bool.or_eq_true]
      exact or_comm
    · simp only [apply, he, ha, Bool.false_eq_true, false_and, or_false]
  | edge tick p =>
    have hmem := Bus.respond_memory tick { b with pins := p }
    rw [apply, hmem]
    cases hw : Bus.writes p with
    | false => simp [accepted, hw]
    | true =>
      by_cases hmaps : Memory.Maps b.memory.lo b.memory.hi (p.writeAddr.toNat / 4 * 4)
      · simp only [if_true, Memory.write, if_pos (Memory.contains_align.mpr hmaps), mem_insert_iff,
          accepted, targets, hw, decide_eq_true hmaps, Bool.and_self, true_and,
          List.mem_singleton, align_eq]
      · have hc : ¬ b.memory.contains (p.writeAddr / 4 * 4) = true :=
          fun hc => hmaps (Memory.contains_align.mp hc)
        simp only [if_true, Memory.write, if_neg hc, accepted, decide_eq_false hmaps,
          Bool.and_false, Bool.false_eq_true, false_and, or_false]

theorem mem_words_run (lo hi fill : Word) (ops : List Access) (a : Word) :
    a ∈ (run lo hi fill ops).memory.words ↔ a ∈ hit lo hi ops := by
  induction ops using List.reverseRecOn with
  | nil => simp [run, hit, Memory.empty]
  | append_singleton ops op ih =>
    have hrun := run_holds lo hi fill ops
    rw [run_concat, mem_words_apply, mem_hit_concat, ih, hrun.lo_eq, hrun.hi_eq]

/-- The number of stored words is the number of addresses that were hit, each counted once. -/
theorem run_size (lo hi fill : Word) (ops : List Access) :
    (run lo hi fill ops).memory.size = (hit lo hi ops).toFinset.card := by
  have hkeys : (hit lo hi ops).toFinset = (run lo hi fill ops).memory.words.keys.toFinset := by
    ext a
    rw [List.mem_toFinset, List.mem_toFinset, Std.ExtTreeMap.mem_keys, mem_words_run]
  rw [hkeys, List.toFinset_card_of_nodup Std.ExtTreeMap.nodup_keys, Std.ExtTreeMap.length_keys]
  rfl

theorem hit_of_mem {ops : List Access} (h : a ∈ hit lo hi ops) :
    a.toNat % 4 = 0 ∧ Memory.Maps lo hi a.toNat := by
  obtain ⟨op, hop, ha⟩ := List.mem_flatMap.mp h
  exact target_of_accepted (List.mem_filter.mp hop).2 ha

theorem run_size_le_append (lo hi fill : Word) (ops more : List Access) :
    (run lo hi fill ops).memory.size ≤ (run lo hi fill (ops ++ more)).memory.size := by
  rw [run_size, run_size]
  apply Finset.card_le_card
  intro a ha
  rw [List.mem_toFinset] at ha ⊢
  rw [hit, List.filter_append, List.flatMap_append]
  exact List.mem_append_left _ ha

theorem maps_word_iff : Memory.Maps lo hi a.toNat ↔ lo ≤ a ∧ a ≤ hi :=
  (and_congr UInt32.le_iff_toNat_le UInt32.le_iff_toNat_le).symm

theorem run_refuses_unmapped (fill : Word) (ops : List Access) (h : a.toNat % 4 = 0)
    (hnot : ¬ (lo ≤ a ∧ a ≤ hi)) :
    (run lo hi fill ops).memory.Refuses a (.outOfRange a lo hi) := by
  have hrun := run_holds lo hi fill ops
  have hrefuses := Memory.refuses_unmapped (m := (run lo hi fill ops).memory) h
  rw [hrun.lo_eq, hrun.hi_eq, maps_word_iff] at hrefuses
  exact hrefuses hnot

theorem run_takes_mapped (fill : Word) (ops : List Access) (h : a.toNat % 4 = 0) (hlo : lo ≤ a)
    (hhi : a ≤ hi) :
    (∃ w, (run lo hi fill ops).memory.load a = .ok w) ∧
      ∀ value, ∃ m, (run lo hi fill ops).memory.store a value = .ok m := by
  have hrun := run_holds lo hi fill ops
  have hat : Memory.Maps (run lo hi fill ops).memory.lo (run lo hi fill ops).memory.hi a.toNat := by
    rw [hrun.lo_eq, hrun.hi_eq, maps_word_iff]
    exact ⟨hlo, hhi⟩
  exact ⟨⟨_, by rw [Memory.load, Memory.check_ok h hat]; rfl⟩,
    fun value => ⟨_, Memory.store_ok value h hat⟩⟩

/-- Where nothing is mapped, nothing is ever stored. -/
theorem run_of_no_range (fill : Word) (ops : List Access) (h : hi < lo) :
    (run lo hi fill ops).memory.size = 0 ∧
      ∀ addr, ∃ e, (run lo hi fill ops).memory.Refuses addr e := by
  have hnone : ∀ addr : Word, ¬ (lo ≤ addr ∧ addr ≤ hi) :=
    fun addr hat => absurd (UInt32.le_trans hat.1 hat.2) (UInt32.not_le.mpr h)
  constructor
  · rw [run_size, Finset.card_eq_zero, List.toFinset_eq_empty_iff, List.eq_nil_iff_forall_not_mem]
    intro a ha
    exact hnone a (maps_word_iff.mp (hit_of_mem ha).2)
  · intro addr
    by_cases haddr : addr.toNat % 4 = 0
    · exact ⟨_, run_refuses_unmapped fill ops haddr (hnone addr)⟩
    · exact ⟨_, Memory.refuses_unaligned haddr⟩

/-- Whatever is stored, loaded from images or written on the bus, in any order and refused or
not: the range and the fill word stay, every stored word is aligned and mapped, and the words that
are stored are those that an accepted operation has hit, so that they never get fewer. Loads and
stores are refused at the same addresses, for alignment first, and where nothing is mapped at all
addresses, so that nothing is ever stored there. -/
theorem stores_hit_words (lo hi fill : Word) (ops : List Access) :
    ((run lo hi fill ops).memory.lo = lo ∧ (run lo hi fill ops).memory.hi = hi ∧
      (run lo hi fill ops).memory.fill = fill) ∧
    (∀ a ∈ (run lo hi fill ops).memory.words, a.toNat % 4 = 0 ∧ lo ≤ a ∧ a ≤ hi) ∧
    (∀ op : Access, op.succeeds (run lo hi fill ops).memory = op.accepted lo hi) ∧
    (∀ text offset, (run lo hi fill (ops ++ [.preload text offset])).memory =
      ((run lo hi fill ops).memory.loadImage text offset).1) ∧
    (run lo hi fill ops).memory.size = (hit lo hi ops).toFinset.card ∧
    (∀ more, (run lo hi fill ops).memory.size ≤ (run lo hi fill (ops ++ more)).memory.size) ∧
    (∀ addr : Word,
      (addr.toNat % 4 ≠ 0 → (run lo hi fill ops).memory.Refuses addr (.unaligned addr)) ∧
      (addr.toNat % 4 = 0 → ¬ (lo ≤ addr ∧ addr ≤ hi) →
        (run lo hi fill ops).memory.Refuses addr (.outOfRange addr lo hi)) ∧
      (addr.toNat % 4 = 0 → lo ≤ addr → addr ≤ hi →
        (∃ w, (run lo hi fill ops).memory.load addr = .ok w) ∧
        ∀ value, ∃ m, (run lo hi fill ops).memory.store addr value = .ok m)) ∧
    (hi < lo → (run lo hi fill ops).memory.size = 0 ∧
      ∀ addr, ∃ e, (run lo hi fill ops).memory.Refuses addr e) := by
  have hrun := run_holds lo hi fill ops
  refine ⟨⟨hrun.lo_eq, hrun.hi_eq, hrun.fill_eq⟩, ?_, ?_, ?_, run_size lo hi fill ops,
    run_size_le_append lo hi fill ops, ?_, run_of_no_range fill ops⟩
  · intro a ha
    rw [← maps_word_iff]
    exact hit_of_mem ((mem_words_run lo hi fill ops a).mp ha)
  · intro op
    rw [(lands (run lo hi fill ops) op).succeeds, hrun.lo_eq, hrun.hi_eq]
  · intro text offset
    rw [run_concat, apply]
  · intro addr
    exact ⟨Memory.refuses_unaligned, run_refuses_unmapped fill ops, run_takes_mapped fill ops⟩

-- A write whose strobe names no byte stores its word all the same.
example : (run 0x100 0x10b 7 [.edge 3
    { writeAddrValid := true, writeDataValid := true, writeAddr := 0x105 }]).memory.size = 1 := by
  decide +kernel

end Access

end BusBench

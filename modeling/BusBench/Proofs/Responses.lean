import BusBench.Proofs.Transactions
import Mathlib.Data.Nat.SuccPred
import Mathlib.Order.SuccPred.Archimedean

namespace BusBench

/-- The response flags tell whether a read and whether a write was asked for. -/
structure Pins.Answer (p : Pins) (read write : Bool) : Prop where
  readAddrReady : p.readAddrReady = read
  readDataValid : p.readDataValid = read
  writeAddrReady : p.writeAddrReady = write
  writeDataReady : p.writeDataReady = write
  writeRespValid : p.writeRespValid = write

theorem Pins.answer_of_inputs {p q : Pins} {read write : Bool} (h : q.Answer read write)
    {reset clock : Bool} (hp : p.inputs = { q.inputs with reset, clock }) : p.Answer read write where
  readAddrReady := (congrArg Inputs.readAddrReady hp).trans h.readAddrReady
  readDataValid := (congrArg Inputs.readDataValid hp).trans h.readDataValid
  writeAddrReady := (congrArg Inputs.writeAddrReady hp).trans h.writeAddrReady
  writeDataReady := (congrArg Inputs.writeDataReady hp).trans h.writeDataReady
  writeRespValid := (congrArg Inputs.writeRespValid hp).trans h.writeRespValid

theorem isGreatest_of_last {P : Nat → Prop} {n e : Nat} (hlt : e < n) (he : P e)
    (hlast : ∀ t < n, e < t → ¬ P t) : IsGreatest {t | t < n ∧ P t} e := by
  refine ⟨⟨hlt, he⟩, ?_⟩
  rintro t ⟨ht, hp⟩
  by_contra hle
  exact hlast t ht (Nat.lt_of_not_le hle) hp

/-- The last time up to `n` at which something holds is `n` itself, or the last one before. -/
theorem isGreatest_succ_cases {P : Nat → Prop} {n e : Nat} (h : IsGreatest {t | t < n + 1 ∧ P t} e) :
    P n ∧ e = n ∨ ¬ P n ∧ IsGreatest {t | t < n ∧ P t} e := by
  obtain ⟨⟨hlt, he⟩, hlast⟩ := h
  by_cases hn : P n
  · have hle : n ≤ e := hlast ⟨Nat.lt_add_one n, hn⟩
    exact .inl ⟨hn, by omega⟩
  · have hne : e ≠ n := by
      rintro rfl
      exact hn he
    exact .inr ⟨hn, ⟨by omega, he⟩, fun t ht => hlast ⟨Nat.lt_succ_of_lt ht.1, ht.2⟩⟩

namespace Rig

variable {σ τ κ : Type} {r : Rig σ τ κ} {b c : Bench σ τ κ}

/-- The bench leaves alone what the device asks for. -/
theorem served_requests : (r.served b).pins.requests = b.bus.pins.requests := by
  rw [served_eq]
  split
  next => rw [Bus.respond_pins]; rfl
  next => rfl

/-- After a rising edge the levels answer what the pins ask for. -/
theorem clockTick_inputs_of_rises (hkeep : r.device.KeepsInputs)
    (hr : r.settings.schedule.risesAt b.tick = true) :
    (r.clockTick b).bus.pins.inputs =
      { reset := r.settings.schedule.resetAt b.tick
        clock := (r.clockTick b).clock
        readAddrReady := b.bus.pins.readAddrValid
        readDataValid := b.bus.pins.readAddrValid
        readData :=
          if b.bus.pins.readAddrValid then b.bus.memory.read b.bus.pins.readAddr
          else b.bus.pins.readData
        writeAddrReady := Bus.writes b.bus.pins
        writeDataReady := Bus.writes b.bus.pins
        writeRespValid := Bus.writes b.bus.pins } := by
  rw [clockTick_inputs hkeep, served_eq, if_pos hr, Bus.respond_pins, clockTick_clock]
  rfl

/-- Any other tick keeps them, apart from reset and the clock. -/
theorem clockTick_inputs_of_flat (hkeep : r.device.KeepsInputs)
    (hr : ¬ r.settings.schedule.risesAt b.tick = true) :
    (r.clockTick b).bus.pins.inputs =
      { b.bus.pins.inputs with
        reset := r.settings.schedule.resetAt b.tick
        clock := (r.clockTick b).clock } := by
  rw [clockTick_inputs hkeep, served_eq, if_neg hr, clockTick_clock]
  rfl

theorem clockTick_reset (hkeep : r.device.KeepsInputs) :
    (r.clockTick b).bus.pins.reset = r.settings.schedule.resetAt b.tick := by
  by_cases hr : r.settings.schedule.risesAt b.tick = true
  · exact congrArg Inputs.reset (clockTick_inputs_of_rises hkeep hr)
  · exact congrArg Inputs.reset (clockTick_inputs_of_flat hkeep hr)

theorem clockTick_answer (hkeep : r.device.KeepsInputs)
    (hr : r.settings.schedule.risesAt b.tick = true) :
    (r.clockTick b).bus.pins.Answer b.bus.pins.readAddrValid (Bus.writes b.bus.pins) := by
  have h := clockTick_inputs_of_rises hkeep hr
  exact ⟨congrArg Inputs.readAddrReady h, congrArg Inputs.readDataValid h,
    congrArg Inputs.writeAddrReady h, congrArg Inputs.writeDataReady h,
    congrArg Inputs.writeRespValid h⟩

/-- Only a read that is served changes the word on the pins. -/
theorem clockTick_readData (hkeep : r.device.KeepsInputs) :
    (r.clockTick b).bus.pins.readData =
      if r.settings.schedule.risesAt b.tick = true ∧ b.bus.pins.readAddrValid = true then
        b.bus.memory.read b.bus.pins.readAddr
      else b.bus.pins.readData := by
  by_cases hr : r.settings.schedule.risesAt b.tick = true
  · simp only [hr, true_and]
    exact congrArg Inputs.readData (clockTick_inputs_of_rises hkeep hr)
  · simp only [hr]
    exact congrArg Inputs.readData (clockTick_inputs_of_flat hkeep hr)

/-- The flags of an edge stay until the next one. -/
theorem after_answer (hkeep : r.device.KeepsInputs) (ht : b.tick = 0) {n e : Nat}
    (he : IsGreatest {t | t < n ∧ r.settings.schedule.risesAt t = true} e) :
    (r.after b n).bus.pins.Answer (r.after b e).bus.pins.readAddrValid
      (Bus.writes (r.after b e).bus.pins) := by
  induction n with
  | zero => exact absurd he.1.1 (Nat.not_lt_zero e)
  | succ n ih =>
    have htick : (r.after b n).tick = n := after_tick_of_zero ht n
    rcases isGreatest_succ_cases he with ⟨hr, rfl⟩ | ⟨hr, hbefore⟩
    · rw [← htick] at hr
      exact clockTick_answer hkeep hr
    · rw [← htick] at hr
      exact Pins.answer_of_inputs (ih hbefore) (clockTick_inputs_of_flat hkeep hr)

/-- The word of a read stays until the next one. -/
theorem after_readData (hkeep : r.device.KeepsInputs) (ht : b.tick = 0) {n e : Nat}
    (he : IsGreatest {t | t < n ∧ r.settings.schedule.risesAt t = true ∧
      (r.after b t).bus.pins.readAddrValid = true} e) :
    (r.after b n).bus.pins.readData =
      (r.after b e).bus.memory.read (r.after b e).bus.pins.readAddr := by
  induction n with
  | zero => exact absurd he.1.1 (Nat.not_lt_zero e)
  | succ n ih =>
    have hdata := clockTick_readData (b := r.after b n) hkeep
    rw [after_tick_of_zero ht n] at hdata
    rcases isGreatest_succ_cases he with ⟨hr, rfl⟩ | ⟨hr, hbefore⟩
    · rw [if_pos hr] at hdata
      exact hdata
    · rw [if_neg hr] at hdata
      exact hdata.trans (ih hbefore)

/-- From the first rising edge on, the response flags at the end of a tick answer what was asked
for on the last rising edge, and the word on the pins is that of the last read served. Reset is
held through its last tick. What the device asks for is its own: the bench hands it back as
the device has left it. -/
theorem responses_last_one_cycle {device : σ} {pins : Pins} {memory : Memory} {trace : τ}
    {coverage : κ} {n : Nat} (hkeep : r.device.KeepsInputs)
    (hstart : r.start device pins memory trace coverage = .ok b) (hticks : r.Ticks b n c) :
    ((∃ t < n, r.settings.schedule.risesAt t = true) →
      ∃ e, IsGreatest {t | t < n ∧ r.settings.schedule.risesAt t = true} e ∧
        c.bus.pins.Answer (r.drive (r.after b e)).bus.pins.readAddrValid
          ((r.drive (r.after b e)).bus.pins.writeAddrValid &&
            (r.drive (r.after b e)).bus.pins.writeDataValid)) ∧
      (∀ e, IsGreatest {t | t < n ∧ r.settings.schedule.risesAt t = true ∧
            (r.drive (r.after b t)).bus.pins.readAddrValid = true} e →
        c.bus.pins.readData = (r.drive (r.after b e)).bus.memory.read
          (r.drive (r.after b e)).bus.pins.readAddr) ∧
      (∀ t, n = t + 1 → c.bus.pins.reset = decide (t ≤ r.settings.schedule.resetTicks)) ∧
      b.bus.pins.requests = pins.requests ∧
      c.bus = (r.after b n).bus ∧
      ∀ t, (r.served (r.after b t)).pins.requests = (r.after b t).bus.pins.requests ∧
        (r.after b (t + 1)).bus.pins =
          (r.device.evaluate (r.after b t).device (r.served (r.after b t)).pins).2 := by
  obtain ⟨_, _, rfl⟩ := start_eq_ok_iff.mp hstart
  have hbus : c.bus = (r.after (.fresh device pins memory trace coverage) n).bus := by
    rw [hticks.eq_after]
    rfl
  rw [hbus]
  refine ⟨?_, fun e he => after_readData hkeep rfl he, ?_, rfl, rfl, ?_⟩
  · rintro ⟨t, hlt, hr⟩
    obtain ⟨e, he⟩ := BddAbove.exists_isGreatest_of_nonempty
      (S := {t | t < n ∧ r.settings.schedule.risesAt t = true})
      ⟨n, fun u hu => hu.1.le⟩ ⟨t, hlt, hr⟩
    exact ⟨e, he, after_answer hkeep rfl he⟩
  · rintro t rfl
    have hreset := clockTick_reset (r := r)
      (b := r.after (.fresh device pins memory trace coverage) t) hkeep
    rw [after_tick_of_zero rfl t] at hreset
    exact hreset
  · exact fun t => ⟨served_requests, congrArg Bus.pins clockTick_bus⟩

end Rig

theorem Master.keepsInputs : Master.device.KeepsInputs := by
  intro m p
  unfold device evaluate
  by_cases hr : p.reset = true
  · simp only [hr, if_true]
    rfl
  · by_cases hc : (p.clock && !m.lastClock) = true
    · simp only [hr, hc, if_true, issue_eq]
      cases asked _ <;> rfl
    · simp only [hr, hc]
      rfl

namespace Rig

/-- A rig whose edges after reset are the ticks 1, 5, 9 and so on. -/
def slowRig : Rig Master Unit Unit :=
  ⟨Master.device, .none, .none, ⟨⟨0x10, 0x14⟩, 20, ⟨2, 0⟩⟩⟩

/-- A master that stores a word and loads it again. -/
def loader : Master := { ops := [.write 0x40 5 0xf, .read 0x40 none], sentinels := ⟨0x10, 0x14⟩ }

def loading : Nat → Bench Master Unit Unit
  | 0 => .fresh loader {} (.empty 0 0xff 0) () ()
  | n + 1 => (slowRig.step (loading n)).2

theorem responses_last_one_cycle_of_load :
    slowRig.device.KeepsInputs ∧
      slowRig.start loader {} (.empty 0 0xff 0) () () = .ok (loading 0) ∧
      slowRig.Ticks (loading 0) 8 (loading 8) ∧ slowRig.Ticks (loading 0) 12 (loading 12) ∧
      (loading 8).bus.pins.Answer false true ∧ (loading 8).bus.pins.writeAddrValid = false ∧
      (loading 12).bus.pins.Answer true false ∧ (loading 12).bus.pins.readData = 5 ∧
      (loading 12).bus.pins.reset = false := by
  have hkeep : slowRig.device.KeepsInputs := Master.keepsInputs
  have hstart : slowRig.start loader {} (.empty 0 0xff 0) () () = .ok (loading 0) := rfl
  have hwrite : slowRig.Ticks (loading 0) 8 (loading 8) :=
    .next (.next (.next (.next (.next (.next (.next (.next .none rfl) rfl) rfl) rfl) rfl) rfl) rfl) rfl
  have hread : slowRig.Ticks (loading 0) 12 (loading 12) :=
    .next (.next (.next (.next hwrite rfl) rfl) rfl) rfl
  obtain ⟨hlate, _⟩ := responses_last_one_cycle hkeep hstart hwrite
  obtain ⟨hanswer, hdata, hreset, _⟩ := responses_last_one_cycle hkeep hstart hread
  -- the last edges of the two runs are ticks 5 and 9
  have hfive : IsGreatest {t | t < 8 ∧ slowRig.settings.schedule.risesAt t = true} 5 :=
    isGreatest_of_last (by decide) rfl (by decide)
  have hnine : IsGreatest {t | t < 12 ∧ slowRig.settings.schedule.risesAt t = true} 9 :=
    isGreatest_of_last (by decide) rfl (by decide)
  obtain ⟨e, he, hfirst⟩ := hlate ⟨5, hfive.1⟩
  obtain rfl := he.unique hfive
  obtain ⟨e, he, hsecond⟩ := hanswer ⟨9, hnine.1⟩
  obtain rfl := he.unique hnine
  have hword := hdata 9 ⟨⟨by decide, rfl, rfl⟩, fun t ht => hnine.2 ⟨ht.1, ht.2.1⟩⟩
  exact ⟨hkeep, hstart, hwrite, hread, hfirst, rfl, hsecond, hword, hreset 11 rfl⟩

end Rig

end BusBench

import BusBench.CoverageFile
import BusBench.Proofs.ClockLevel
import BusBench.Proofs.Inputs

namespace BusBench

/-- A sink that takes its samples into a toggle coverage. -/
structure CoverageSink.Measures {κ : Type} (c : CoverageSink κ) (view : κ → Coverage) : Prop where
  sample : ∀ tick p s, view (c.sample tick p s) = (view s).sample p
  write : ∀ s, view (c.write s).2 = view s

theorem Coverage.sink_measures : Coverage.sink.Measures id := ⟨fun _ _ _ => rfl, fun _ => rfl⟩

theorem CoverageFile.sink_measures (path : Path) :
    (CoverageFile.sink path).Measures CoverageFile.coverage := by
  refine ⟨fun _ _ _ => rfl, ?_⟩
  intro s
  change (CoverageFile.write path s).2.coverage = s.coverage
  unfold CoverageFile.write
  split <;> rfl

namespace Coverage

variable {c : Coverage} {last : Pins}

theorem sample_of_first (h : c.last = none) (now : Pins) :
    (c.sample now).readHandshakes = c.readHandshakes ∧
      (c.sample now).writeHandshakes = c.writeHandshakes := by
  simp [sample, h]

theorem sample_of_last (h : c.last = some last) (now : Pins) :
    (c.sample now).readHandshakes =
        c.readHandshakes + (!last.clock && now.clock && now.readDataValid).toNat ∧
      (c.sample now).writeHandshakes =
        c.writeHandshakes + (!last.clock && now.clock && now.writeRespValid).toNat := by
  simp [sample, h, compare]

theorem sample_samples (now : Pins) : (c.sample now).samples = c.samples + 1 := by
  cases h : c.last <;> simp [sample, h, compare]

theorem sample_last (now : Pins) : (c.sample now).last = some now := rfl

end Coverage

theorem Schedule.risesAt_zero (s : Schedule) : s.risesAt 0 = decide (s.halfPeriod = 1) := by
  have hfirst : s.togglesAt 0 = true ↔ s.halfPeriod = 1 := by
    rw [← Nat.one_mod_eq_zero_iff, eq_comm (b := 0)]
    simp [togglesAt]
  rw [Bool.eq_iff_iff, decide_eq_true_iff, ← hfirst]
  simp [risesAt, inversionsBefore]

namespace Rig

variable {σ τ κ : Type} {r : Rig σ τ κ} {b c d : Bench σ τ κ} {view : κ → Coverage}

/-- A step that goes on shows the coverage the pins that it leaves. -/
theorem step_continued (h : r.step c = (.ok .continued, d)) :
    d.bus = (r.clockTick c).bus ∧ d.clock = (r.clockTick c).clock ∧
      d.coverage = r.coverage.sample c.tick (r.clockTick c).bus.pins c.coverage := by
  rcases step_cases h with ⟨hr, _⟩ | ⟨_, _, ⟨_, hr, _⟩ | ⟨_, hd⟩⟩
  · cases hr
  · cases hr
  · rw [hd]
    exact ⟨rfl, rfl, rfl⟩

theorem clockTick_pin_clock (hkeep : r.device.KeepsInputs) :
    (r.clockTick b).bus.pins.clock = (r.clockTick b).clock :=
  (congrArg Inputs.clock (clockTick_inputs hkeep)).trans served_clock

/-- The clock of a run rises on a tick where the schedule says so. -/
theorem Ticks.rises {n : Nat} (ht : b.tick = 0) (hc : b.clock = false) (h : r.Ticks b n c) :
    (!c.clock && (r.clockTick c).clock) = r.settings.schedule.risesAt n := by
  have hbefore : c.clock = true ↔ r.settings.schedule.High n := by
    rw [h.eq_after]
    exact after_clock ht hc n
  have hnow : (r.clockTick c).clock = true ↔ r.settings.schedule.High (n + 1) := by
    rw [clockTick_clock]
    exact drive_clock ht hc h
  rw [Bool.eq_iff_iff, Schedule.risesAt_iff_high, ← hbefore, ← hnow]
  simp

/-- A response at a rising clock answers what the pins asked for before. -/
theorem clockTick_handshakes (hkeep : r.device.KeepsInputs)
    (hrise : (!b.clock && (r.clockTick b).clock) = r.settings.schedule.risesAt b.tick) :
    (!b.clock && (r.clockTick b).bus.pins.clock && (r.clockTick b).bus.pins.readDataValid) =
        (r.settings.schedule.risesAt b.tick && b.bus.pins.readAddrValid) ∧
      (!b.clock && (r.clockTick b).bus.pins.clock && (r.clockTick b).bus.pins.writeRespValid) =
        (r.settings.schedule.risesAt b.tick && Bus.writes b.bus.pins) := by
  have hinputs := clockTick_inputs (b := b) hkeep
  have hread : (r.clockTick b).bus.pins.readDataValid = (r.served b).pins.readDataValid :=
    congrArg Inputs.readDataValid hinputs
  have hwrite : (r.clockTick b).bus.pins.writeRespValid = (r.served b).pins.writeRespValid :=
    congrArg Inputs.writeRespValid hinputs
  rw [clockTick_pin_clock hkeep, hrise, hread, hwrite]
  by_cases hr : r.settings.schedule.risesAt b.tick = true
  · obtain ⟨hreads, hwrites⟩ := served_answers (b := b) hr
    rw [hreads, hwrites]
    exact ⟨rfl, rfl⟩
  · rw [eq_false_of_ne_true hr]
    exact ⟨rfl, rfl⟩

/-- The coverage has counted what the bus has served, up to a read or a write on the first tick. -/
structure Tallied (view : κ → Coverage) (read write : Bool) (n : Nat) (c : Bench σ τ κ) : Prop where
  clock : c.bus.pins.clock = c.clock
  samples : (view c.coverage).samples = n
  last : (view c.coverage).last = some c.bus.pins
  reads : (view c.coverage).readHandshakes + read.toNat = c.bus.stats.reads
  writes : (view c.coverage).writeHandshakes + write.toNat = c.bus.stats.writes

/-- Without a sample to compare the first one with, what the first tick serves is not counted. -/
theorem tallied_first (hkeep : r.device.KeepsInputs) (hview : r.coverage.Measures view)
    (hfresh : view b.coverage = {}) (ht : b.tick = 0) (hstats : b.bus.stats = {})
    (hstep : r.step b = (.ok .continued, c)) :
    Tallied view (r.settings.schedule.risesAt 0 && b.bus.pins.readAddrValid)
      (r.settings.schedule.risesAt 0 && Bus.writes b.bus.pins) 1 c := by
  obtain ⟨hbus, hclock, hcoverage⟩ := step_continued hstep
  have hsample : view c.coverage = (view b.coverage).sample c.bus.pins := by
    rw [hcoverage, hview.sample, hbus]
  have hnone : (view b.coverage).last = none := by rw [hfresh]
  obtain ⟨hreads, hwrites⟩ := Coverage.sample_of_first hnone c.bus.pins
  refine ⟨?_, ?_, ?_, ?_, ?_⟩
  · rw [hbus, hclock, clockTick_pin_clock hkeep]
  · rw [hsample, Coverage.sample_samples, hfresh]
  · rw [hsample, Coverage.sample_last]
  · rw [hsample, hreads, hfresh, hbus, clockTick_reads, hstats, ht]
  · rw [hsample, hwrites, hfresh, hbus, clockTick_writes, hstats, ht]

theorem Tallied.step {read write : Bool} {n : Nat} (hkeep : r.device.KeepsInputs)
    (hview : r.coverage.Measures view)
    (hrise : (!c.clock && (r.clockTick c).clock) = r.settings.schedule.risesAt c.tick)
    (h : Tallied view read write n c) (hstep : r.step c = (.ok .continued, d)) :
    Tallied view read write (n + 1) d := by
  obtain ⟨hbus, hclock, hcoverage⟩ := step_continued hstep
  have hsample : view d.coverage = (view c.coverage).sample d.bus.pins := by
    rw [hcoverage, hview.sample, hbus]
  obtain ⟨hread, hwrite⟩ := clockTick_handshakes hkeep hrise
  obtain ⟨hreads, hwrites⟩ := Coverage.sample_of_last h.last d.bus.pins
  rw [h.clock, hbus, hread, ← hbus] at hreads
  rw [h.clock, hbus, hwrite, ← hbus] at hwrites
  refine ⟨?_, ?_, ?_, ?_, ?_⟩
  · rw [hbus, hclock, clockTick_pin_clock hkeep]
  · rw [hsample, Coverage.sample_samples, h.samples]
  · rw [hsample, Coverage.sample_last]
  · rw [hsample, hreads, hbus, clockTick_reads, ← h.reads]
    omega
  · rw [hsample, hwrites, hbus, clockTick_writes, ← h.writes]
    omega

theorem Ticks.tallied (hkeep : r.device.KeepsInputs) (hview : r.coverage.Measures view)
    (hfresh : view b.coverage = {}) (ht : b.tick = 0) (hc : b.clock = false)
    (hstats : b.bus.stats = {}) {n : Nat} (hn : 0 < n) (h : r.Ticks b n c) :
    Tallied view (r.settings.schedule.risesAt 0 && b.bus.pins.readAddrValid)
      (r.settings.schedule.risesAt 0 && Bus.writes b.bus.pins) n c := by
  induction h with
  | none => omega
  | @next n c d hticks hstep ih =>
    rcases Nat.eq_zero_or_pos n with rfl | hpos
    · cases hticks
      exact tallied_first hkeep hview hfresh ht hstats hstep
    · have htick : c.tick = n := by rw [hticks.tick_eq, ht, Nat.zero_add]
      have hrise := hticks.rises ht hc
      rw [← htick] at hrise
      exact (ih hpos).step hkeep hview hrise hstep

/-- The coverage of a run has counted its ticks, and the reads and writes that the bus has served
but for those of the first tick, which has a rising edge if the clock inverts on every tick. -/
theorem handshakes_match_bus {device : σ} {pins : Pins} {memory : Memory} {trace : τ} {coverage : κ}
    {report : Report} {final : Bench σ τ κ} (hkeep : r.device.KeepsInputs)
    (hview : r.coverage.Measures view) (hfresh : view coverage = {})
    (hstart : r.start device pins memory trace coverage = .ok b)
    (hrun : r.run b = (.ok report, final)) :
    (view final.coverage).samples = report.ticks ∧
      (view final.coverage).readHandshakes +
          (decide (r.settings.schedule.halfPeriod = 1 ∧ 0 < report.ticks) &&
            pins.readAddrValid).toNat = report.bus.reads ∧
      (view final.coverage).writeHandshakes +
          (decide (r.settings.schedule.halfPeriod = 1 ∧ 0 < report.ticks) &&
            Bus.writes pins).toNat = report.bus.writes := by
  obtain ⟨_, _, rfl⟩ := start_eq_ok_iff.mp hstart
  obtain ⟨n, c, hc, _, hdown⟩ := run_ok_ticks rfl hrun
  have hreport : report = r.conclude c := teardown_report (b := c.halt) (by rw [hdown])
  have hfinal : view final.coverage = view c.coverage := by
    have hwrite : final.coverage = (r.coverage.write c.coverage).2 :=
      congrArg (fun x => Bench.coverage x.2) hdown.symm
    rw [hwrite, hview.write]
  have hticks : report.ticks = n := by
    rw [hreport]
    exact hc.tick_eq.trans (Nat.zero_add n)
  have hbus : report.bus = c.bus.stats := by rw [hreport]; rfl
  rw [hfinal, hticks, hbus]
  rcases Nat.eq_zero_or_pos n with rfl | hn
  · cases hc
    have hempty : view (Bench.fresh device pins memory trace coverage).coverage = {} := hfresh
    rw [hempty]
    simp [Bench.fresh]
  · have h := hc.tallied hkeep hview hfresh rfl rfl rfl hn
    have hfirst : r.settings.schedule.risesAt 0 =
        decide (r.settings.schedule.halfPeriod = 1 ∧ 0 < n) := by
      rw [Schedule.risesAt_zero]
      simp [hn]
    rw [← hfirst]
    exact ⟨h.samples, h.reads, h.writes⟩

/-- A bench whose clock inverts on every tick, with a device that goes on asking for one word. -/
def eagerRig : Rig Unit Unit CoverageFile :=
  ⟨.silent, .none, CoverageFile.sink "c.json", ⟨⟨0xff0, 0xff4⟩, 3, ⟨1, 0⟩⟩⟩

def eagerPins : Pins := { readAddrValid := true, readAddr := 0x40 }

def eager : Bench Unit Unit CoverageFile := .fresh () eagerPins (.empty 0 0xff 0) () {}

theorem handshakes_match_bus_of_eager :
    eagerRig.device.KeepsInputs ∧ eagerRig.coverage.Measures CoverageFile.coverage ∧
      eager.coverage.coverage = {} ∧
      eagerRig.start () eagerPins (.empty 0 0xff 0) () {} = .ok eager ∧
      ∃ report final, eagerRig.run eager = (.ok report, final) ∧
        final.coverage.coverage.samples = 3 ∧
        final.coverage.coverage.readHandshakes + 1 = report.bus.reads ∧ report.bus.reads = 2 ∧
        final.coverage.coverage.writeHandshakes = 0 := by
  have hkeep : eagerRig.device.KeepsInputs := fun _ _ => rfl
  have hview := CoverageFile.sink_measures "c.json"
  have hstart : eagerRig.start () eagerPins (.empty 0 0xff 0) () {} = .ok eager := rfl
  obtain ⟨report, final, hrun, hticks, hreads, hwrites⟩ : ∃ report final,
    eagerRig.run eager = (.ok report, final) ∧ report.ticks = 3 ∧ report.bus.reads = 2 ∧
      report.bus.writes = 0 := ⟨_, _, rfl, rfl, rfl, rfl⟩
  obtain ⟨hsamples, hread, hwrite⟩ := handshakes_match_bus hkeep hview rfl hstart hrun
  rw [hticks] at hsamples hread hwrite
  exact ⟨hkeep, hview, rfl, hstart, report, final, hrun, hsamples, hread, hreads,
    hwrite.trans hwrites⟩

theorem first_handshake_not_counted :
    eagerRig.device.KeepsInputs ∧
      ¬ ∀ b report final, eagerRig.start () eagerPins (.empty 0 0xff 0) () {} = .ok b →
        eagerRig.run b = (.ok report, final) →
        final.coverage.coverage.readHandshakes = report.bus.reads := by
  refine ⟨fun _ _ => rfl, ?_⟩
  intro h
  obtain ⟨report, final, hrun, hcounted, hreads⟩ : ∃ report final,
    eagerRig.run eager = (.ok report, final) ∧ final.coverage.coverage.readHandshakes = 1 ∧
      report.bus.reads = 2 := ⟨_, _, rfl, rfl, rfl⟩
  have heq := h eager report final rfl hrun
  rw [hcounted, hreads] at heq
  cases heq

end Rig

end BusBench

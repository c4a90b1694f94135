import BusBench.Bench
import Mathlib.Order.Basic

namespace BusBench

theorem Settings.check_eq_ok_iff {s : Settings} :
    s.check = .ok () ↔
      s.sentinels.pass ≠ s.sentinels.fail ∧ 0 < s.schedule.halfPeriod ∧ 0 < s.timeout := by
  unfold check
  by_cases hs : s.sentinels.pass = s.sentinels.fail
  · simp [hs]
  · by_cases hp : s.schedule.halfPeriod = 0
    · simp [hs, hp]
    · by_cases ht : s.timeout = 0
      · simp [hs, hp, ht]
      · simp [hs, hp, ht, Nat.pos_of_ne_zero]

section

variable {σ τ κ : Type}

/-- A bench that has not been stepped. -/
def Bench.fresh (device : σ) (pins : Pins) (memory : Memory) (trace : τ) (coverage : κ) :
    Bench σ τ κ :=
  { device, bus := { pins := { pins with reset := true, clock := false }, memory }, trace, coverage }

/-- The bench with its sinks in other states. -/
def Bench.withSinks (b : Bench σ τ κ) (trace : τ) (coverage : κ) : Bench σ τ κ :=
  { b with trace, coverage }

/-- The bench once nothing clocks it any more. -/
def Bench.halt (b : Bench σ τ κ) : Bench σ τ κ := { b with phase := .halted }

end

namespace Rig

variable {σ τ κ : Type} {r : Rig σ τ κ} {b c d : Bench σ τ κ}

theorem start_eq_ok_iff {device : σ} {pins : Pins} {memory : Memory} {trace : τ} {coverage : κ} :
    r.start device pins memory trace coverage = .ok b ↔
      r.settings.check = .ok () ∧ memory.lo ≤ memory.hi ∧
        b = .fresh device pins memory trace coverage := by
  unfold start Settings.checkWith
  cases hc : r.settings.check with
  | error e => simp
  | ok u =>
    by_cases hm : memory.hi < memory.lo
    · simp [hm, UInt32.not_le.mpr hm]
    · simp [hm, UInt32.not_lt.mp hm, Bench.fresh, eq_comm]

/-- The bench `n` ticks on, were nothing to stop it and no sink to watch it. -/
def after (r : Rig σ τ κ) (b : Bench σ τ κ) : Nat → Bench σ τ κ
  | 0 => b
  | n + 1 => { r.clockTick (after r b n) with tick := (after r b n).tick + 1 }

/-- So many steps in a row that clocked the device. -/
inductive Ticks (r : Rig σ τ κ) (b : Bench σ τ κ) : Nat → Bench σ τ κ → Prop
  | none : Ticks r b 0 b
  | next {n c d} : Ticks r b n c → r.step c = (.ok .continued, d) → Ticks r b (n + 1) d

/-- A bench that a step leaves as it is, apart from halting it. -/
def Stops (r : Rig σ τ κ) (b : Bench σ τ κ) : Prop :=
  b.phase = .halted ∨ (r.termination b).isSome

/-- Sinks that do not fail while the trace is in a good state, in which it then stays. -/
structure Quiet (r : Rig σ τ κ) (good : τ → Prop) : Prop where
  sample : ∀ tick p s, good s →
    (r.trace.sample tick p s).1 = .ok () ∧ good (r.trace.sample tick p s).2
  close : ∀ s, good s → (r.trace.close s).1 = .ok ()
  write : ∀ s, (r.coverage.write s).1 = .ok ()

theorem quiet_of_no_sinks (device : Device σ) (settings : Settings) :
    Quiet ⟨device, .none, .none, settings⟩ fun _ => True :=
  ⟨fun _ _ _ _ => ⟨rfl, trivial⟩, fun _ _ => rfl, fun _ => rfl⟩

theorem serve_of_rises (h : r.settings.schedule.risesAt b.tick = true) :
    r.serve b =
      { b with bus := b.bus.respond b.tick,
               verdict := r.settings.sentinels.latch (b.bus.respond b.tick).pins b.verdict } :=
  if_pos h

theorem serve_of_flat (h : r.settings.schedule.risesAt b.tick ≠ true) : r.serve b = b := if_neg h

@[simp] theorem serve_tick : (r.serve b).tick = b.tick := by
  unfold serve; split <;> rfl

@[simp] theorem serve_phase : (r.serve b).phase = b.phase := by
  unfold serve; split <;> rfl

@[simp] theorem serve_clock : (r.serve b).clock = b.clock := by
  unfold serve; split <;> rfl

@[simp] theorem serve_device : (r.serve b).device = b.device := by
  unfold serve; split <;> rfl

theorem serve_withSinks (t : τ) (k : κ) :
    r.serve (b.withSinks t k) = (r.serve b).withSinks t k := by
  by_cases h : r.settings.schedule.risesAt b.tick = true
  · rw [serve_of_rises h, serve_of_rises (b := b.withSinks t k) h]
    rfl
  · rw [serve_of_flat h, serve_of_flat (b := b.withSinks t k) h]

theorem clockTick_withSinks (t : τ) (k : κ) :
    r.clockTick (b.withSinks t k) = (r.clockTick b).withSinks t k := by
  have hd : r.drive (b.withSinks t k) = (r.drive b).withSinks t k := rfl
  rw [clockTick, hd, serve_withSinks]
  rfl

@[simp] theorem clockTick_tick : (r.clockTick b).tick = b.tick :=
  (serve_tick : (r.serve (r.drive b)).tick = (r.drive b).tick)

theorem clockTick_sinks : (r.clockTick b).withSinks b.trace b.coverage = r.clockTick b := by
  rw [← clockTick_withSinks]
  rfl

@[simp] theorem clockTick_trace : (r.clockTick b).trace = b.trace := by
  rw [← clockTick_sinks]
  rfl

@[simp] theorem clockTick_coverage : (r.clockTick b).coverage = b.coverage := by
  rw [← clockTick_sinks]
  rfl

theorem clockTick_phase : (r.clockTick b).phase =
    if b.phase = .reset ∧ !r.settings.schedule.resetAt b.tick then .running else b.phase :=
  (serve_phase : (r.serve (r.drive b)).phase = (r.drive b).phase)

/-- The bus as the device is evaluated on it. -/
def served (r : Rig σ τ κ) (b : Bench σ τ κ) : Bus := (r.serve (r.drive b)).bus

theorem served_eq : r.served b =
    if r.settings.schedule.risesAt b.tick then (r.drive b).bus.respond b.tick
    else (r.drive b).bus := by
  by_cases hr : r.settings.schedule.risesAt b.tick = true
  · rw [if_pos hr, served,
      serve_of_rises (show r.settings.schedule.risesAt (r.drive b).tick = true from hr)]
    rfl
  · rw [if_neg hr, served,
      serve_of_flat (show r.settings.schedule.risesAt (r.drive b).tick ≠ true from hr)]

theorem clockTick_device :
    (r.clockTick b).device = (r.device.evaluate b.device (r.served b).pins).1 := by
  have h : (r.clockTick b).device =
    (r.device.evaluate (r.serve (r.drive b)).device (r.served b).pins).1 := rfl
  rw [h, serve_device]
  rfl

theorem clockTick_bus :
    (r.clockTick b).bus =
      { r.served b with pins := (r.device.evaluate b.device (r.served b).pins).2 } := by
  have h : (r.clockTick b).bus =
    { r.served b with
      pins := (r.device.evaluate (r.serve (r.drive b)).device (r.served b).pins).2 } := rfl
  rw [h, serve_device]
  rfl

theorem clockTick_stats : (r.clockTick b).bus.stats =
    if r.settings.schedule.risesAt b.tick then ((r.drive b).bus.respond b.tick).stats
    else b.bus.stats := by
  have h : (r.clockTick b).bus.stats = (r.served b).stats := by rw [clockTick_bus]
  rw [h, served_eq]
  split <;> rfl

theorem clockTick_verdict : (r.clockTick b).verdict =
    if r.settings.schedule.risesAt b.tick then
      r.settings.sentinels.latch (r.served b).pins b.verdict
    else b.verdict := by
  have h : (r.clockTick b).verdict = (r.serve (r.drive b)).verdict := rfl
  rw [h, served]
  by_cases hr : r.settings.schedule.risesAt b.tick = true
  · rw [if_pos hr, serve_of_rises (show r.settings.schedule.risesAt (r.drive b).tick = true from hr)]
    rfl
  · rw [if_neg hr, serve_of_flat (show r.settings.schedule.risesAt (r.drive b).tick ≠ true from hr)]
    rfl

theorem clockTick_clock :
    (r.clockTick b).clock = (b.clock != r.settings.schedule.togglesAt b.tick) :=
  (serve_clock : (r.serve (r.drive b)).clock = (r.drive b).clock)

/-- All that a step can do. -/
theorem step_cases {res : Except Fault Progress} (h : r.step b = (res, c)) :
    (res = .ok .done ∧ r.Stops b ∧ c = b.halt) ∨
    (¬ r.Stops b ∧
      r.trace.sample b.tick (r.clockTick b).bus.pins b.trace = (res.map fun _ => (), c.trace) ∧
      ((∃ e, res = .error e ∧ c = (r.clockTick b).withSinks c.trace b.coverage) ∨
        (res = .ok .continued ∧
          c = { (r.clockTick b).withSinks c.trace
                (r.coverage.sample b.tick (r.clockTick b).bus.pins b.coverage) with
                tick := b.tick + 1 }))) := by
  unfold step at h
  split at h
  next hs =>
    obtain ⟨hr, hc⟩ := Prod.mk.inj h
    exact .inl ⟨hr.symm, hs, hc.symm⟩
  next hs =>
    refine .inr ⟨hs, ?_⟩
    simp only [record, clockTick_tick, clockTick_trace, clockTick_coverage] at h
    split at h
    next e t hsample =>
      obtain ⟨rfl, rfl⟩ := Prod.mk.inj h
      exact ⟨hsample, .inl ⟨e, rfl, by simp [Bench.withSinks]⟩⟩
    next t hsample =>
      obtain ⟨rfl, rfl⟩ := Prod.mk.inj h
      exact ⟨hsample, .inr ⟨rfl, rfl⟩⟩

theorem step_of_stops (h : r.Stops b) : r.step b = (.ok .done, b.halt) := if_pos h

theorem after_tick (n : Nat) : (r.after b n).tick = b.tick + n := by
  induction n with
  | zero => rfl
  | succ n ih => simp only [after, ih]; omega

theorem after_tick_of_zero (ht : b.tick = 0) (n : Nat) : (r.after b n).tick = n := by
  rw [after_tick, ht, Nat.zero_add]

theorem after_phase (hb : b.phase ≠ .halted) (n : Nat) : (r.after b n).phase ≠ .halted := by
  induction n with
  | zero => exact hb
  | succ n ih =>
    simp only [after, clockTick_phase]
    split
    next => simp
    next => exact ih

/-- A run goes through the benches that nothing stops, apart from what its sinks hold. -/
theorem Ticks.eq_after {n : Nat} (h : r.Ticks b n c) :
    c = (r.after b n).withSinks c.trace c.coverage := by
  induction h with
  | none => rfl
  | @next n c d _ hstep ih =>
    rcases step_cases hstep with ⟨hr, _⟩ | ⟨_, _, ⟨e, hr, _⟩ | ⟨_, hd⟩⟩
    · cases hr
    · cases hr
    · rw [hd, ih, clockTick_withSinks]
      rfl

theorem Ticks.tick_eq {n : Nat} (h : r.Ticks b n c) : c.tick = b.tick + n := by
  rw [h.eq_after, ← after_tick (r := r)]
  rfl

theorem Ticks.not_stops {n m : Nat} (h : r.Ticks b n c) (hm : m < n) :
    ¬ r.Stops (r.after b m) := by
  induction h with
  | none => omega
  | @next n c d hc hstep ih =>
    rcases step_cases hstep with ⟨hr, _⟩ | ⟨hs, _⟩
    · cases hr
    · rcases Nat.lt_or_eq_of_le (Nat.le_of_lt_succ hm) with hlt | rfl
      · exact ih hlt
      · rw [hc.eq_after] at hs
        exact hs

theorem Ticks.head {n : Nat} (hstep : r.step b = (.ok .continued, c)) (h : r.Ticks c n d) :
    r.Ticks b (n + 1) d := by
  induction h with
  | none => exact .next .none hstep
  | next _ hs ih => exact .next ih hs

theorem step_of_goes (h : ¬ r.Stops b) : r.step b = r.record (r.clockTick b) := if_neg h

theorem stops_iff :
    r.Stops b ↔ b.phase = .halted ∨ b.verdict ≠ none ∨
      r.device.finished b.device b.bus.pins = true ∨ r.settings.timeout ≤ b.tick := by
  unfold Stops termination
  cases b.verdict with
  | some v => cases v <;> simp
  | none =>
    by_cases hf : r.device.finished b.device b.bus.pins = true
    · simp [hf]
    · by_cases ht : r.settings.timeout ≤ b.tick <;> simp [hf, ht]

theorem tick_lt_timeout (h : ¬ r.Stops b) : b.tick < r.settings.timeout := by
  by_contra hle
  exact h (stops_iff.mpr (.inr (.inr (.inr (Nat.le_of_not_lt hle)))))

/-- The first ticks of a run. -/
theorem Ticks.take {n m : Nat} (h : r.Ticks b n c) (hm : m ≤ n) : ∃ d, r.Ticks b m d := by
  induction h with
  | none =>
    obtain rfl : m = 0 := by omega
    exact ⟨b, .none⟩
  | @next n c d hc hstep ih =>
    rcases Nat.lt_or_eq_of_le hm with hlt | rfl
    · exact ih (by omega)
    · exact ⟨d, .next hc hstep⟩

theorem Ticks.le_timeout {n : Nat} (h : r.Ticks b n c) : n ≤ r.settings.timeout - b.tick := by
  cases n with
  | zero => exact Nat.zero_le _
  | succ n =>
    have hlt := tick_lt_timeout (h.not_stops (Nat.lt_add_one n))
    rw [after_tick] at hlt
    omega

/-- The fuel of the loop never runs out: its last step is one that does not go on. -/
theorem steps_cases {fuel : Nat} (hf : r.settings.timeout - b.tick < fuel) :
    ∃ n c, r.Ticks b n c ∧
      ((r.Stops c ∧ r.steps fuel b = (.ok (), c.halt)) ∨
        ∃ e d, r.step c = (.error e, d) ∧ r.steps fuel b = (.error e, d)) := by
  induction fuel generalizing b with
  | zero => omega
  | succ fuel ih =>
    rw [steps]
    rcases hstep : r.step b with ⟨res, c⟩
    rcases step_cases hstep with ⟨rfl, hs, rfl⟩ | ⟨hs, _, ⟨e, rfl, _⟩ | ⟨rfl, hc⟩⟩
    · exact ⟨0, b, .none, .inl ⟨hs, rfl⟩⟩
    · exact ⟨0, b, .none, .inr ⟨e, c, hstep, rfl⟩⟩
    · have ht : c.tick = b.tick + 1 := by rw [hc]
      have hlt := tick_lt_timeout hs
      obtain ⟨n, d, hd, hend⟩ := ih (b := c) (by omega)
      exact ⟨n + 1, d, hd.head hstep, hend⟩

/-- All that a first run can do. -/
theorem run_cases (hb : b.report = none) :
    ∃ n c, r.Ticks b n c ∧
      ((r.Stops c ∧ r.run b = r.teardown c.halt) ∨
        ∃ e d, r.step c = (.error e, d) ∧ r.run b = (.error e, (r.teardown d.halt).2)) := by
  obtain ⟨n, c, hc, ⟨hs, h⟩ | ⟨e, d, hstep, h⟩⟩ :=
    steps_cases (r := r) (b := b) (Nat.lt_add_one _)
  · exact ⟨n, c, hc, .inl ⟨hs, by rw [run, hb]; simp only [h]⟩⟩
  · exact ⟨n, c, hc, .inr ⟨e, d, hstep, by rw [run, hb]; simp only [h]; rfl⟩⟩

theorem Ticks.steps_eq {n : Nat} (h : r.Ticks b n c) (fuel : Nat) :
    r.steps (fuel + n) b = r.steps fuel c := by
  induction h generalizing fuel with
  | none => rfl
  | @next n c d _ hstep ih =>
    rw [show fuel + (n + 1) = fuel + 1 + n by omega, ih, steps, hstep]

/-- A run ends on the first bench that stops. -/
theorem Ticks.run_of_stops {n : Nat} (h : r.Ticks b n c) (hs : r.Stops c)
    (hb : b.report = .none) : r.run b = r.teardown c.halt := by
  have hle := h.le_timeout
  have hfuel : r.settings.timeout - b.tick + 1 = r.settings.timeout - b.tick - n + 1 + n := by omega
  have hsteps : r.steps (r.settings.timeout - b.tick + 1) b = (.ok (), c.halt) := by
    rw [hfuel, h.steps_eq, steps, step_of_stops hs]
  rw [run, hb]
  simp only [hsteps]

theorem Ticks.good {good : τ → Prop} {n : Nat} (quiet : r.Quiet good) (hb : good b.trace)
    (h : r.Ticks b n c) : good c.trace := by
  induction h with
  | none => exact hb
  | @next n c d _ hstep ih =>
    rcases step_cases hstep with ⟨hr, _⟩ | ⟨_, hsample, _⟩
    · cases hr
    · have hg := (quiet.sample c.tick (r.clockTick c).bus.pins c.trace ih).2
      rwa [hsample] at hg

theorem teardown_result : (r.teardown b).1 = (r.trace.close b.trace).1 >>= fun _ =>
    (r.coverage.write b.coverage).1 >>= fun _ => .ok (r.conclude b) := rfl

theorem teardown_report {report : Report} (h : (r.teardown b).1 = .ok report) :
    report = r.conclude b := by
  rw [teardown_result] at h
  cases hc : (r.trace.close b.trace).1 with
  | error e => rw [hc] at h; cases h
  | ok u =>
    cases hw : (r.coverage.write b.coverage).1 with
    | error e => rw [hc, hw] at h; cases h
    | ok u => rw [hc, hw] at h; cases h; rfl

theorem teardown_ok (hclose : (r.trace.close b.trace).1 = .ok ())
    (hwrite : (r.coverage.write b.coverage).1 = .ok ()) :
    (r.teardown b).1 = .ok (r.conclude b) := by
  rw [teardown_result, hclose, hwrite]
  rfl

/-- Without faults of the sinks, a first run reports where it stops. -/
theorem run_quiet {good : τ → Prop} (quiet : r.Quiet good) (hg : good b.trace)
    (hb : b.report = none) :
    ∃ n c, r.Ticks b n c ∧ r.Stops c ∧ r.run b = (.ok (r.conclude c), (r.teardown c.halt).2) := by
  obtain ⟨n, c, hc, ⟨hs, h⟩ | ⟨e, d, hstep, _⟩⟩ := run_cases (r := r) hb
  · refine ⟨n, c, hc, hs, ?_⟩
    have hok := teardown_ok (b := c.halt) (quiet.close c.trace (hc.good quiet hg))
      (quiet.write c.coverage)
    rw [h, Prod.ext_iff]
    exact ⟨hok, rfl⟩
  · rcases step_cases hstep with ⟨hr, _⟩ | ⟨_, hsample, _⟩
    · cases hr
    · have hok := (quiet.sample c.tick (r.clockTick c).bus.pins c.trace (hc.good quiet hg)).1
      rw [hsample] at hok
      cases hok

theorem conclude_after {n : Nat} (h : r.Ticks b n c) :
    r.conclude c.halt = r.conclude (r.after b n) := by
  rw [h.eq_after]
  rfl

theorem stops_after {n : Nat} (h : r.Ticks b n c) (hs : r.Stops c) : r.Stops (r.after b n) := by
  rw [h.eq_after] at hs
  exact hs

theorem run_ok_ticks {report : Report} (hb : b.report = none) (h : r.run b = (.ok report, c)) :
    ∃ n d, r.Ticks b n d ∧ r.Stops d ∧ r.teardown d.halt = (.ok report, c) := by
  obtain ⟨n, d, hd, ⟨hs, hrun⟩ | ⟨e, f, _, hrun⟩⟩ := run_cases (r := r) hb
  · exact ⟨n, d, hd, hs, hrun.symm.trans h⟩
  · rw [hrun] at h
    cases h

/-- The report of a first run is that of the first tick at which anything stops it. -/
theorem run_ok {report : Report} (hb : b.report = none) (h : r.run b = (.ok report, c)) :
    ∃ n, r.Stops (r.after b n) ∧ (∀ m < n, ¬ r.Stops (r.after b m)) ∧
      report = r.conclude (r.after b n) ∧ c.bus.memory = (r.after b n).bus.memory := by
  obtain ⟨n, d, hd, hs, hdown⟩ := run_ok_ticks hb h
  refine ⟨n, stops_after hd hs, fun m hm => hd.not_stops hm, ?_, ?_⟩
  · rw [← conclude_after hd]
    apply teardown_report
    rw [hdown]
  · have hc : c = (r.teardown d.halt).2 := by rw [hdown]
    rw [hc, hd.eq_after]
    rfl

end Rig

end BusBench

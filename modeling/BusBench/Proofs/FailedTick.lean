import BusBench.CallCount
import BusBench.Proofs.ClockLevel

namespace BusBench

/-- What a failed tick leaves as it was, if trying it again is to be like trying it once. -/
structure Bench.Kept {σ τ κ : Type} (before failed : Bench σ τ κ) : Prop where
  clock : failed.clock = before.clock
  memory : failed.bus.memory = before.bus.memory
  stats : failed.bus.stats = before.bus.stats
  verdict : failed.verdict = before.verdict

/-- A level that shows the parity of a count goes on showing it. -/
theorem bne_iff_odd_add {n : Nat} {level : Bool} (h : level = true ↔ Odd n) (inverts : Bool) :
    (level != inverts) = true ↔ Odd (n + inverts.toNat) := by
  cases inverts with
  | false => simpa using h
  | true =>
    rw [Bool.toNat_true, Nat.odd_add_one, ← h]
    simp

theorem Schedule.count_toggles_succ (s : Schedule) (t : Nat) :
    Nat.count (s.togglesAt ·) (t + 1) = Nat.count (s.togglesAt ·) t + (s.togglesAt t).toNat := by
  rw [Nat.count_succ]
  cases s.togglesAt t <;> rfl

namespace Rig

variable {σ τ κ : Type} {r : Rig σ τ κ} {b c d : Bench σ τ κ}

/-- A tick on which the clock does not invert serves nothing. -/
theorem clockTick_kept_iff :
    b.Kept (r.clockTick b) ↔ r.settings.schedule.togglesAt b.tick = false := by
  constructor
  · intro h
    have hclock := h.clock
    rw [clockTick_clock] at hclock
    revert hclock
    cases b.clock <;> cases r.settings.schedule.togglesAt b.tick <;> simp
  · intro h
    have hflat : ¬ r.settings.schedule.risesAt b.tick = true := by simp [Schedule.risesAt, h]
    refine ⟨?_, ?_, ?_, ?_⟩
    · rw [clockTick_clock, h, Bool.bne_false]
    · rw [clockTick_bus, served_eq, if_neg hflat]
      rfl
    · rw [clockTick_stats, if_neg hflat]
    · rw [clockTick_verdict, if_neg hflat]

/-- Benches that steps and runs lead to, whether these fail or not, with the number of the steps
that failed on a tick on which the clock inverts. -/
inductive Reaches (r : Rig σ τ κ) (b : Bench σ τ κ) : Nat → Bench σ τ κ → Prop
  | start : Reaches r b 0 b
  | stepped {n c d p} : Reaches r b n c → r.step c = (.ok p, d) → Reaches r b n d
  | failed {n c d e} : Reaches r b n c → r.step c = (.error e, d) →
      Reaches r b (n + (r.settings.schedule.togglesAt c.tick).toNat) d
  | ran {n c d res} : Reaches r b n c → r.run c = (res, d) → Reaches r b n d

/-- All that a step that fails can do. -/
theorem step_failed {e : Fault} (h : r.step c = (.error e, d)) :
    ¬ r.Stops c ∧ d = (r.clockTick c).withSinks d.trace c.coverage := by
  rcases step_cases h with ⟨hr, _⟩ | ⟨hs, _, ⟨_, _, hd⟩ | ⟨hr, _⟩⟩
  · cases hr
  · exact ⟨hs, hd⟩
  · cases hr

theorem step_went {p : Progress} (h : r.step c = (.ok p, d)) (hd : d.phase ≠ .halted) :
    c.phase ≠ .halted ∧ d.tick = c.tick + 1 ∧ d.clock = (r.clockTick c).clock := by
  rcases step_cases h with ⟨_, _, rfl⟩ | ⟨hs, _, ⟨_, hr, _⟩ | ⟨_, hd⟩⟩
  · exact absurd rfl hd
  · cases hr
  · exact ⟨fun hp => hs (.inl hp), by rw [hd], by rw [hd]; rfl⟩

theorem run_not_halted {res : Except Fault Report} (h : r.run c = (res, d)) (hd : d.phase ≠ .halted) :
    d = c := by
  cases hc : c.report with
  | some report =>
    rw [run, hc] at h
    exact (Prod.mk.inj h).2.symm
  | none =>
    rcases run_cases (r := r) hc with ⟨_, x, _, ⟨_, hrun⟩ | ⟨_, y, _, hrun⟩⟩
    · rw [hrun] at h
      rw [← (Prod.mk.inj h).2] at hd
      exact absurd rfl hd
    · rw [hrun] at h
      rw [← (Prod.mk.inj h).2] at hd
      exact absurd rfl hd

/-- Each failed try of an inversion puts the clock out of step with the schedule once more. -/
theorem Reaches.clock {n : Nat} (ht : b.tick = 0) (hb : b.clock = false) (h : r.Reaches b n c)
    (hc : c.phase ≠ .halted) :
    c.clock = true ↔ Odd (Nat.count (r.settings.schedule.togglesAt ·) c.tick + n) := by
  induction h with
  | start => simp [ht, hb]
  | @stepped n c d p _ hstep ih =>
    obtain ⟨hp, htick, hclock⟩ := step_went hstep hc
    rw [hclock, clockTick_clock, htick, Schedule.count_toggles_succ, Nat.add_right_comm]
    exact bne_iff_odd_add (ih hp) _
  | @failed n c d e _ hstep ih =>
    -- the clock inverts but no tick is counted, so the number of failed tries takes the parity
    obtain ⟨hs, hd⟩ := step_failed hstep
    have hp : c.phase ≠ .halted := fun hp => hs (.inl hp)
    have htick : d.tick = c.tick := by rw [hd]; exact clockTick_tick
    have hclock : d.clock = (r.clockTick c).clock := by rw [hd]; rfl
    rw [hclock, clockTick_clock, htick, ← Nat.add_assoc]
    exact bne_iff_odd_add (ih hp) _
  | @ran n c d res _ hrun ih =>
    obtain rfl := run_not_halted hrun hc
    exact ih hc

/-- What a second try of a failed tick does, unless it is not made. -/
theorem retry_cases {res : Except Fault Progress} {x : Bench σ τ κ} (hx : r.step d = (res, x)) :
    (res = .ok .done ∧ x = d.halt) ∨
      (res ≠ .ok .done ∧ x.clock = (r.clockTick d).clock ∧ x.bus = (r.clockTick d).bus) := by
  rcases step_cases hx with ⟨hr, _, hd⟩ | ⟨_, _, ⟨_, hr, hd⟩ | ⟨hr, hd⟩⟩
  · exact .inl ⟨hr, hd⟩
  · exact .inr ⟨by rw [hr]; simp, by rw [hd]; rfl, by rw [hd]; rfl⟩
  · exact .inr ⟨by rw [hr]; simp, by rw [hd]; rfl, by rw [hd]; rfl⟩

/-- A tick that fails is not counted, and the next step tries it again unless the bench stops. Both
tries invert the clock and serve the bus: the first leaves them as they were just if the clock
does not invert on that tick, and the second shows the level of the schedule just if an even
number of tries of an inversion has failed. -/
theorem failed_tick_kept_iff {device : σ} {pins : Pins} {memory : Memory} {trace : τ} {coverage : κ}
    {n : Nat} {e : Fault} (hstart : r.start device pins memory trace coverage = .ok b)
    (h : r.Reaches b n c) (hstep : r.step c = (.error e, d)) :
    d.tick = c.tick ∧ d.coverage = c.coverage ∧
      (c.Kept d ↔ r.settings.schedule.togglesAt c.tick = false) ∧
      d.bus.stats.reads = c.bus.stats.reads +
        (r.settings.schedule.risesAt c.tick && c.bus.pins.readAddrValid).toNat ∧
      d.bus.stats.writes = c.bus.stats.writes +
        (r.settings.schedule.risesAt c.tick && Bus.writes c.bus.pins).toNat ∧
      ∀ res x, r.step d = (res, x) → (res = .ok .done ∧ x = d.halt) ∨
        (res ≠ .ok .done ∧
          x.clock = (r.drive d).bus.pins.clock ∧
          (x.clock = true ↔ Odd (Nat.count (r.settings.schedule.togglesAt ·) (c.tick + 1) +
            (n + (r.settings.schedule.togglesAt c.tick).toNat))) ∧
          x.bus.stats.reads = d.bus.stats.reads +
            (r.settings.schedule.risesAt c.tick && d.bus.pins.readAddrValid).toNat ∧
          x.bus.stats.writes = d.bus.stats.writes +
            (r.settings.schedule.risesAt c.tick && Bus.writes d.bus.pins).toNat) := by
  obtain ⟨_, _, rfl⟩ := start_eq_ok_iff.mp hstart
  obtain ⟨hs, hd⟩ := step_failed hstep
  have htick : d.tick = c.tick := by rw [hd]; exact clockTick_tick
  have hbus : d.bus = (r.clockTick c).bus := by rw [hd]; rfl
  have hkept : c.Kept d ↔ c.Kept (r.clockTick c) := by
    rw [hd]
    exact ⟨fun k => ⟨k.clock, k.memory, k.stats, k.verdict⟩,
      fun k => ⟨k.clock, k.memory, k.stats, k.verdict⟩⟩
  refine ⟨htick, by rw [hd]; rfl, hkept.trans clockTick_kept_iff, by rw [hbus, clockTick_reads],
    by rw [hbus, clockTick_writes], ?_⟩
  intro res x hx
  rcases retry_cases hx with hdone | ⟨hgoes, hclock, hserved⟩
  · exact .inl hdone
  · refine .inr ⟨hgoes, hclock.trans clockTick_clock, ?_, ?_, ?_⟩
    · have hphase : d.phase ≠ .halted := by
        intro hp
        rw [step_of_stops (.inl hp)] at hx
        exact hgoes (Prod.mk.inj hx).1.symm
      have hlevel := (h.failed hstep).clock rfl rfl hphase
      rw [hclock, clockTick_clock, htick, Schedule.count_toggles_succ, Nat.add_right_comm]
      rw [htick] at hlevel
      exact bne_iff_odd_add hlevel _
    · rw [hserved, clockTick_reads, htick]
    · rw [hserved, clockTick_writes, htick]

/-- A bench whose clock inverts on every tick, and whose trace fails on one of them. -/
def flakyRig (failAt : Nat) : Rig Playback CallCount Unit :=
  ⟨Playback.device, CallCount.sink (some failAt) false, .none, ⟨⟨0xff0, 0xff4⟩, 30, ⟨1, 0⟩⟩⟩

/-- A device that asks for a word from its second evaluation on. -/
def asker : Playback := ⟨[⟨1, [(.readAddrValid, 1)]⟩], none, 0, 0⟩

def flaky (failAt : Nat) : Nat → Bench Playback CallCount Unit
  | 0 => .fresh asker {} (.empty 0 0xff 0) {} ()
  | n + 1 => ((flakyRig failAt).step (flaky failAt n)).2

theorem failed_tick_kept_iff_of_rising_tick :
    (flakyRig 2).start asker {} (.empty 0 0xff 0) {} () = .ok (flaky 2 0) ∧
      (flakyRig 2).Reaches (flaky 2 0) 0 (flaky 2 2) ∧
      (flakyRig 2).step (flaky 2 2) = (.error (.refused "disk full"), flaky 2 3) ∧
      ¬ (flaky 2 2).Kept (flaky 2 3) ∧
      (flaky 2 2).bus.stats.reads = 0 ∧ (flaky 2 3).bus.stats.reads = 1 ∧
      (flaky 2 4).bus.stats.reads = 2 ∧ (flaky 2 4).tick = 2 := by
  have hstart : (flakyRig 2).start asker {} (.empty 0 0xff 0) {} () = .ok (flaky 2 0) := rfl
  have hreach : (flakyRig 2).Reaches (flaky 2 0) 0 (flaky 2 2) := .stepped (.stepped .start rfl) rfl
  have hstep : (flakyRig 2).step (flaky 2 2) = (.error (.refused "disk full"), flaky 2 3) := rfl
  obtain ⟨htick, _, hkept, hreads, _, hretry⟩ := failed_tick_kept_iff hstart hreach hstep
  have htoggles : (flakyRig 2).settings.schedule.togglesAt (flaky 2 2).tick ≠ false := by decide
  obtain ⟨hdone, _⟩ | ⟨_, _, _, hagain, _⟩ := hretry (.error (.refused "disk full")) (flaky 2 4) rfl
  · cases hdone
  · exact ⟨hstart, hreach, hstep, fun h => htoggles (hkept.mp h), rfl, hreads, hagain, rfl⟩

theorem failed_tick_not_kept :
    ¬ ∀ n c d e, (flakyRig 1).Reaches (flaky 1 0) n c → (flakyRig 1).step c = (.error e, d) →
      ∀ res x, (flakyRig 1).step d = (res, x) → res = .ok .done ∨
        c.Kept d ∧ (x.clock = true ↔
          Odd (Nat.count ((flakyRig 1).settings.schedule.togglesAt ·) (c.tick + 1))) := by
  intro h
  have hretry := h 0 (flaky 1 1) (flaky 1 2) (.refused "disk full") (.stepped .start rfl) rfl
    (.error (.refused "disk full")) (flaky 1 3) rfl
  rcases hretry with hdone | ⟨_, hlevel⟩
  · cases hdone
  · have heven : ¬ Odd (Nat.count ((flakyRig 1).settings.schedule.togglesAt ·) 2) := by decide
    exact heven (hlevel.mp rfl)

end Rig

end BusBench

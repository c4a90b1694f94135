import BusBench.Playback
import BusBench.Proofs.Edges
import BusBench.Proofs.Service
import BusBench.Proofs.Ticks

namespace BusBench

namespace Schedule

/-- Whether the clock is high after the inversions of the first `n` ticks. -/
def High (s : Schedule) (n : Nat) : Prop := Odd (Nat.count (s.togglesAt ·) n)

theorem high_succ (s : Schedule) (n : Nat) :
    s.High (n + 1) ↔ ¬ (s.High n ↔ s.togglesAt n = true) := by
  unfold High
  rw [Nat.count_succ]
  by_cases h : s.togglesAt n = true
  · simp [h, Nat.odd_add_one]
  · simp [h]

/-- The edges of the closed form are those of the level. -/
theorem risesAt_iff_high (s : Schedule) (n : Nat) :
    s.risesAt n = true ↔ ¬ s.High n ∧ s.High (n + 1) := by
  rw [risesAt_iff_count, high_succ]
  change s.togglesAt n = true ∧ ¬ s.High n ↔ _
  tauto

end Schedule

/-- What a tick calls once reset and the clock are driven. -/
inductive Call where
  | respond
  | observe
  | evaluate
  deriving DecidableEq

namespace Rig

variable {σ τ κ : Type} {r : Rig σ τ κ} {b c d : Bench σ τ κ}

/-- The effect of one call. -/
def call (r : Rig σ τ κ) (b : Bench σ τ κ) : Call → Bench σ τ κ
  | .respond => { b with bus := b.bus.respond b.tick }
  | .observe => { b with verdict := r.settings.sentinels.latch b.bus.pins b.verdict }
  | .evaluate => r.evaluate b

theorem clockTick_eq_calls :
    r.clockTick b =
      (if r.settings.schedule.risesAt b.tick then [Call.respond, .observe, .evaluate]
        else [.evaluate]).foldl r.call (r.drive b) := by
  unfold clockTick
  by_cases h : r.settings.schedule.risesAt b.tick = true
  · rw [if_pos h, serve_of_rises (show r.settings.schedule.risesAt (r.drive b).tick = true from h)]
    rfl
  · rw [if_neg h, serve_of_flat (show r.settings.schedule.risesAt (r.drive b).tick ≠ true from h)]
    rfl

theorem clockTick_reads : (r.clockTick b).bus.stats.reads = b.bus.stats.reads +
    (r.settings.schedule.risesAt b.tick && b.bus.pins.readAddrValid).toNat := by
  rw [clockTick_stats]
  cases r.settings.schedule.risesAt b.tick with
  | false => rfl
  | true => exact Bus.respond_reads b.tick (r.drive b).bus

theorem clockTick_writes : (r.clockTick b).bus.stats.writes = b.bus.stats.writes +
    (r.settings.schedule.risesAt b.tick && Bus.writes b.bus.pins).toNat := by
  rw [clockTick_stats]
  cases r.settings.schedule.risesAt b.tick with
  | false => rfl
  | true => exact Bus.respond_writes b.tick (r.drive b).bus

theorem after_clock (ht : b.tick = 0) (hc : b.clock = false) (n : Nat) :
    (r.after b n).clock = true ↔ r.settings.schedule.High n := by
  induction n with
  | zero => simp [after, hc, Schedule.High]
  | succ n ih =>
    have hclock : (r.after b (n + 1)).clock =
      ((r.after b n).clock != r.settings.schedule.togglesAt n) := by
      have h := clockTick_clock (r := r) (b := r.after b n)
      rwa [after_tick_of_zero ht] at h
    rw [hclock, Schedule.high_succ, ← ih]
    cases (r.after b n).clock <;> cases r.settings.schedule.togglesAt n <;> simp

theorem drive_clock (ht : b.tick = 0) (hc : b.clock = false) {n : Nat} (h : r.Ticks b n c) :
    (r.drive c).clock = true ↔ r.settings.schedule.High (n + 1) := by
  rw [← after_clock (r := r) ht hc (n + 1)]
  have hclock := clockTick_clock (r := r) (b := r.after b n)
  rw [h.eq_after]
  change ((r.after b n).clock != r.settings.schedule.togglesAt (r.after b n).tick) = true ↔ _
  rw [← hclock]
  rfl

/-- On every tick of a run the clock pin shows whether the schedule has inverted it an odd number
of times, so it rises where the schedule says; there, and nowhere else, the bus is served and
the sentinels are watched, once each and in this order, before the device sees the pins. -/
theorem clock_agrees_with_schedule {device : σ} {pins : Pins} {memory : Memory} {trace : τ}
    {coverage : κ} {t : Nat} (hstart : r.start device pins memory trace coverage = .ok b)
    (hticks : r.Ticks b t c) (hstep : r.step c = (.ok .continued, d)) :
    ((r.drive c).bus.pins.clock = true ↔
        Odd (Nat.count (r.settings.schedule.togglesAt ·) (t + 1))) ∧
      (c.clock = true ↔ Odd (Nat.count (r.settings.schedule.togglesAt ·) t)) ∧
      d.clock = (r.drive c).bus.pins.clock ∧
      (r.settings.schedule.risesAt t = true ↔
        c.clock = false ∧ (r.drive c).bus.pins.clock = true) ∧
      (r.settings.schedule.risesAt t = true → (r.drive c).clock = true) ∧
      d = { (if c.clock = false ∧ (r.drive c).bus.pins.clock = true then
              [Call.respond, .observe, .evaluate] else [.evaluate]).foldl r.call (r.drive c) with
            tick := t + 1, trace := d.trace, coverage := d.coverage } := by
  obtain ⟨_, _, rfl⟩ := start_eq_ok_iff.mp hstart
  have htick : c.tick = t := (hticks.tick_eq).trans (Nat.zero_add t)
  have hbefore : c.clock = true ↔ r.settings.schedule.High t := by
    rw [hticks.eq_after]
    exact after_clock rfl rfl t
  have hnow : (r.drive c).clock = true ↔ r.settings.schedule.High (t + 1) :=
    drive_clock rfl rfl hticks
  have hrise : r.settings.schedule.risesAt t = true ↔ c.clock = false ∧ (r.drive c).clock = true := by
    rw [Schedule.risesAt_iff_high, ← hbefore, ← hnow, Bool.not_eq_true]
  rcases step_cases hstep with ⟨hr, _⟩ | ⟨_, _, ⟨e, hr, _⟩ | ⟨_, hd⟩⟩
  · cases hr
  · cases hr
  · have hclock : d.clock = (r.drive c).clock := by
      rw [hd]
      exact clockTick_clock
    refine ⟨hnow, hbefore, hclock, hrise, fun h => (hrise.mp h).2, ?_⟩
    have hcalls := clockTick_eq_calls (r := r) (b := c)
    rw [htick] at hcalls
    have hif : (if c.clock = false ∧ (r.drive c).bus.pins.clock = true then
        [Call.respond, .observe, .evaluate] else [.evaluate]) =
        if r.settings.schedule.risesAt t = true then [Call.respond, .observe, .evaluate]
        else [.evaluate] := by
      simp only [hrise]
      rfl
    rw [hif, ← hcalls, ← htick]
    rw [hd]
    rfl

/-- A bench on which the clock inverts on every tick, the first included. -/
def fastRig : Rig Playback Unit Unit :=
  ⟨Playback.device, .none, .none, ⟨⟨0x10, 0x14⟩, 9, ⟨1, 0⟩⟩⟩

/-- A device that pulls at the clock pin and asks for a word. -/
def clockPuller : Playback :=
  ⟨[⟨0, [(.clock, 0)]⟩, ⟨1, [(.clock, 1), (.readAddrValid, 1)]⟩], none, 0, 0⟩

def pulled : Nat → Bench Playback Unit Unit
  | 0 => .fresh clockPuller {} (.empty 0 0xff 7) () ()
  | n + 1 => (fastRig.step (pulled n)).2

theorem clock_agrees_with_schedule_when_pulled :
    fastRig.start clockPuller {} (.empty 0 0xff 7) () () = .ok (pulled 0) ∧
      fastRig.Ticks (pulled 0) 2 (pulled 2) ∧
      fastRig.step (pulled 2) = (.ok .continued, pulled 3) ∧
      (pulled 2).bus.pins.clock = true ∧ (pulled 2).clock = false ∧
      (fastRig.drive (pulled 2)).bus.pins.clock = true ∧
      Odd (Nat.count (fastRig.settings.schedule.togglesAt ·) 3) ∧
      (pulled 3).bus.stats.reads = 1 := by
  have hstart : fastRig.start clockPuller {} (.empty 0 0xff 7) () () = .ok (pulled 0) := rfl
  have hticks : fastRig.Ticks (pulled 0) 2 (pulled 2) := .next (.next .none rfl) rfl
  have hstep : fastRig.step (pulled 2) = (.ok .continued, pulled 3) := rfl
  obtain ⟨hodd, _, _, hrise, _, _⟩ := clock_agrees_with_schedule hstart hticks hstep
  obtain ⟨hlow, hhigh⟩ := hrise.mp rfl
  exact ⟨hstart, hticks, hstep, rfl, hlow, hhigh, hodd.mp hhigh, rfl⟩

end Rig

end BusBench

import BusBench.Playback
import BusBench.Proofs.Service
import BusBench.Proofs.Ticks
import Mathlib.Order.Bounds.Defs

namespace BusBench

namespace Sentinels

/-- The address whose reading gives a verdict. -/
def address (s : Sentinels) : Verdict → Word
  | .pass => s.pass
  | .fail => s.fail

theorem sees_eq_some_iff {s : Sentinels} (hs : s.pass ≠ s.fail) {p : Pins} {v : Verdict} :
    s.sees p = some v ↔ p.readAddrValid = true ∧ p.readAddr = s.address v := by
  unfold sees
  cases hv : p.readAddrValid with
  | false => simp
  | true =>
    by_cases hp : p.readAddr = s.pass
    · cases v <;> simp [hp, address, hs]
    · by_cases hf : p.readAddr = s.fail
      · cases v <;> simp [hf, address, Ne.symm hs]
      · cases v <;> simp [hp, hf, address]

end Sentinels

/-- How a run ends that a sentinel ends. -/
def Verdict.outcome : Verdict → Outcome
  | .pass => .pass
  | .fail => .fail .sentinel

namespace Rig

variable {σ τ κ : Type} {r : Rig σ τ κ} {b c : Bench σ τ κ}

/-- Tick `t` is a rising edge on which the read of a sentinel is pending. -/
def Sighted (r : Rig σ τ κ) (b : Bench σ τ κ) (t : Nat) (v : Verdict) : Prop :=
  r.settings.schedule.risesAt t = true ∧ (r.after b t).bus.pins.readAddrValid = true ∧
    (r.after b t).bus.pins.readAddr = r.settings.sentinels.address v

/-- The device is finished once it was evaluated `t` times. -/
def FinishedAt (r : Rig σ τ κ) (b : Bench σ τ κ) (t : Nat) : Prop :=
  r.device.finished (r.after b t).device (r.after b t).bus.pins = true

theorem served_request : (r.served b).pins.readAddrValid = b.bus.pins.readAddrValid ∧
    (r.served b).pins.readAddr = b.bus.pins.readAddr := by
  rw [served_eq]
  split
  next => rw [Bus.respond_pins]; exact ⟨rfl, rfl⟩
  next => exact ⟨rfl, rfl⟩

theorem after_device (n : Nat) :
    (r.after b n).device =
      (List.range n).foldl
        (fun s t => (r.device.evaluate s (r.served (r.after b t)).pins).1) b.device := by
  induction n with
  | zero => rfl
  | succ n ih =>
    rw [List.range_succ, List.foldl_append, ← ih]
    exact clockTick_device

theorem after_verdict_keep {n : Nat} {v : Verdict} (h : (r.after b n).verdict = some v) :
    (r.after b (n + 1)).verdict = some v := by
  have hv : (r.after b (n + 1)).verdict = (r.clockTick (r.after b n)).verdict := rfl
  rw [hv, clockTick_verdict, h]
  split <;> rfl

theorem after_verdict_succ (hs : r.settings.sentinels.pass ≠ r.settings.sentinels.fail)
    (ht : b.tick = 0) {n : Nat} (h : (r.after b n).verdict = none) {v : Verdict} :
    (r.after b (n + 1)).verdict = some v ↔ r.Sighted b n v := by
  have hv : (r.after b (n + 1)).verdict = (r.clockTick (r.after b n)).verdict := rfl
  have htick : (r.after b n).tick = n := after_tick_of_zero ht n
  obtain ⟨hvalid, haddr⟩ := served_request (r := r) (b := r.after b n)
  rw [hv, clockTick_verdict, h, htick, Sighted]
  by_cases hr : r.settings.schedule.risesAt n = true
  · rw [if_pos hr, ← hvalid, ← haddr]
    have hsees := Sentinels.sees_eq_some_iff hs (p := (r.served (r.after b n)).pins) (v := v)
    simpa [hr, Sentinels.latch] using hsees
  · simp [hr]

theorem after_verdict_eq_none_iff (hs : r.settings.sentinels.pass ≠ r.settings.sentinels.fail)
    (ht : b.tick = 0) (hb : b.verdict = none) (n : Nat) :
    (r.after b n).verdict = none ↔ ∀ t < n, ∀ v, ¬ r.Sighted b t v := by
  induction n with
  | zero => simp [after, hb]
  | succ n ih =>
    constructor
    · intro h t hlt v hsight
      have hn : (r.after b n).verdict = none := by
        by_contra hne
        obtain ⟨w, hw⟩ := Option.ne_none_iff_exists'.mp hne
        rw [after_verdict_keep hw] at h
        cases h
      rcases Nat.lt_or_eq_of_le (Nat.le_of_lt_succ hlt) with hlt | rfl
      · exact ih.mp hn t hlt v hsight
      · rw [(after_verdict_succ hs ht hn).mpr hsight] at h
        cases h
    · intro h
      have hn := ih.mpr fun t hlt => h t (by omega)
      by_contra hne
      obtain ⟨w, hw⟩ := Option.ne_none_iff_exists'.mp hne
      exact h n (by omega) w ((after_verdict_succ hs ht hn).mp hw)

theorem stops_after_iff (hp : b.phase ≠ .halted) (ht : b.tick = 0) (n : Nat) :
    r.Stops (r.after b n) ↔
      (r.after b n).verdict ≠ none ∨ r.FinishedAt b n ∨ r.settings.timeout ≤ n := by
  rw [stops_iff, after_tick_of_zero ht]
  simp [after_phase hp, FinishedAt]

theorem isLeast_of_first_stop (hs : r.settings.sentinels.pass ≠ r.settings.sentinels.fail)
    (hp : b.phase ≠ .halted) (ht : b.tick = 0) (hb : b.verdict = none) {n : Nat}
    (hn : r.Stops (r.after b n))
    (first : ∀ m < n, ¬ r.Stops (r.after b m)) :
    IsLeast {t | (∃ s < t, ∃ v, r.Sighted b s v) ∨ r.FinishedAt b t ∨ t = r.settings.timeout}
      n := by
  constructor
  · rcases (stops_after_iff hp ht n).mp hn with hv | hf | hle
    · left
      by_contra hnone
      apply hv
      rw [after_verdict_eq_none_iff hs ht hb]
      intro t hlt v hsight
      exact hnone ⟨t, hlt, v, hsight⟩
    · exact .inr (.inl hf)
    · rcases Nat.eq_or_lt_of_le hle with heq | hlt
      · exact .inr (.inr heq.symm)
      · exact absurd ((stops_after_iff hp ht _).mpr (.inr (.inr le_rfl))) (first _ hlt)
  · intro t hmem
    by_contra hlt
    apply first t (Nat.lt_of_not_le hlt)
    rw [stops_after_iff hp ht]
    rcases hmem with ⟨s, hst, v, hsight⟩ | hf | rfl
    · left
      intro hnone
      exact (after_verdict_eq_none_iff hs ht hb t).mp hnone s hst v hsight
    · exact .inr (.inl hf)
    · exact .inr (.inr le_rfl)

theorem verdict_of_first_stop (hs : r.settings.sentinels.pass ≠ r.settings.sentinels.fail)
    (hp : b.phase ≠ .halted) (ht : b.tick = 0) (hb : b.verdict = none) {n : Nat}
    (first : ∀ m < n, ¬ r.Stops (r.after b m)) (v : Verdict) :
    (r.after b n).verdict = some v ↔
      ∃ s, n = s + 1 ∧ r.Sighted b s v ∧ ∀ u < s, ∀ w, ¬ r.Sighted b u w := by
  cases n with
  | zero => simp [after, hb]
  | succ n =>
    have hnone : (r.after b n).verdict = none := by
      by_contra hne
      exact first n (Nat.lt_add_one n) ((stops_after_iff hp ht n).mpr (.inl hne))
    rw [after_verdict_succ hs ht hnone]
    constructor
    · intro h
      exact ⟨n, rfl, h, (after_verdict_eq_none_iff hs ht hb n).mp hnone⟩
    · rintro ⟨s, heq, h, _⟩
      obtain rfl : n = s := Nat.succ.inj heq
      exact h

theorem outcome_of_verdict {v : Verdict} (h : b.verdict = some v) :
    (r.conclude b).outcome = v.outcome := by
  unfold conclude termination
  rw [h]
  cases v <;> rfl

theorem outcome_of_finish (h : b.verdict = none)
    (hf : r.device.finished b.device b.bus.pins = true) :
    (r.conclude b).outcome = .fail .noVerdict := by
  unfold conclude termination
  rw [h]
  simp [hf]

theorem outcome_of_timeout (h : b.verdict = none)
    (hf : ¬ r.device.finished b.device b.bus.pins = true) (ht : r.settings.timeout ≤ b.tick) :
    (r.conclude b).outcome = .fail .timeout := by
  unfold conclude termination
  rw [h]
  simp [hf, ht]

/-- Without faults of the sinks every run ends, on the first tick before which a sentinel was seen,
the device has finished or the time is over, and the device was evaluated once for each tick up
to there. A sentinel seen is the first one, on the last tick; it counts before a finish, and a
finish before the timeout. -/
theorem run_law {good : τ → Prop} (device : σ) (pins : Pins) {memory : Memory} {trace : τ}
    (coverage : κ) (quiet : r.Quiet good) (hgood : good trace) (hset : r.settings.check = .ok ())
    (hmem : memory.lo ≤ memory.hi) :
    ∃ b c report final, r.start device pins memory trace coverage = .ok b ∧
      r.Ticks b report.ticks c ∧ r.step c = (.ok .done, c.halt) ∧
      r.run b = (.ok report, final) ∧
      IsLeast {t | (∃ s < t, ∃ v, r.Sighted b s v) ∨ r.FinishedAt b t ∨ t = r.settings.timeout}
        report.ticks ∧
      (r.after b report.ticks).device =
        (List.range report.ticks).foldl
          (fun s t => (r.device.evaluate s (r.served (r.after b t)).pins).1) device ∧
      final.device = (r.device.finalize (r.after b report.ticks).device
        (r.after b report.ticks).bus.pins).1 ∧
      (∀ v, final.verdict = some v ↔ ∃ s, report.ticks = s + 1 ∧ r.Sighted b s v ∧
        ∀ u < s, ∀ w, ¬ r.Sighted b u w) ∧
      (∀ v, final.verdict = some v → report.outcome = v.outcome) ∧
      (final.verdict = none → r.FinishedAt b report.ticks → report.outcome = .fail .noVerdict) ∧
      (final.verdict = none → ¬ r.FinishedAt b report.ticks →
        report.outcome = .fail .timeout ∧ report.ticks = r.settings.timeout) := by
  obtain ⟨hs, -, -⟩ := Settings.check_eq_ok_iff.mp hset
  let b : Bench σ τ κ := .fresh device pins memory trace coverage
  have hp : b.phase ≠ .halted := by simp [b, Bench.fresh]
  obtain ⟨n, c, hc, hstop, hrun⟩ := run_quiet (b := b) quiet hgood rfl
  have hn : r.Stops (r.after b n) := stops_after hc hstop
  have first : ∀ m < n, ¬ r.Stops (r.after b m) := fun m hm => hc.not_stops hm
  have hticks : (r.conclude c).ticks = n := hc.tick_eq.trans (Nat.zero_add n)
  have hverdict : (r.teardown c.halt).2.verdict = (r.after b n).verdict := by
    rw [hc.eq_after]
    rfl
  have hconclude : r.conclude c = r.conclude (r.after b n) := conclude_after hc
  refine ⟨b, c, r.conclude c, (r.teardown c.halt).2, start_eq_ok_iff.mpr ⟨hset, hmem, rfl⟩, ?_⟩
  rw [hticks, hverdict, hconclude]
  refine ⟨hc, step_of_stops hstop, hconclude ▸ hrun,
    isLeast_of_first_stop hs hp rfl rfl hn first, after_device n, ?_,
    verdict_of_first_stop hs hp rfl rfl first, fun _ => outcome_of_verdict, outcome_of_finish, ?_⟩
  · rw [hc.eq_after]
    rfl
  · intro hnone hf
    have hle : r.settings.timeout ≤ n := by
      rcases (stops_after_iff hp rfl n).mp hn with hv | hfin | hle
      · exact absurd hnone hv
      · exact absurd hfin hf
      · exact hle
    have htick : (r.after b n).tick = n := (after_tick n).trans (Nat.zero_add n)
    refine ⟨outcome_of_timeout hnone hf (htick.symm ▸ hle), ?_⟩
    by_contra hne
    exact first r.settings.timeout (by omega) ((stops_after_iff hp rfl _).mpr (.inr (.inr le_rfl)))

/-- A bench on which the clock inverts on every tick and the time is over after three. -/
def shortRig : Rig Playback Unit Unit :=
  ⟨Playback.device, .none, .none, ⟨⟨0x10, 0x14⟩, 3, ⟨1, 0⟩⟩⟩

/-- Asks for the fail sentinel from its second evaluation on and finishes with the third. -/
def lateReader : Playback := ⟨[⟨1, [(.readAddrValid, 1), (.readAddr, 0x14)]⟩], some 3, 0, 0⟩

theorem run_law_of_coincidence :
    shortRig.Quiet (fun _ => True) ∧ shortRig.settings.check = .ok () ∧
      (Memory.empty 0 0xff 0).lo ≤ (Memory.empty 0 0xff 0).hi ∧
      ∃ b report final, shortRig.start lateReader {} (.empty 0 0xff 0) () () = .ok b ∧
        shortRig.run b = (.ok report, final) ∧ shortRig.Sighted b 2 .fail ∧
        shortRig.FinishedAt b 3 ∧ report.ticks = 3 ∧ report.outcome = .fail .sentinel := by
  have quiet : shortRig.Quiet fun _ => True := quiet_of_no_sinks ..
  obtain ⟨b, c, report, final, hstart, _, _, hrun, _, _, _, hverdict, houtcome, _, _⟩ :=
    run_law lateReader {} () quiet (trivial : (fun _ => True) ()) rfl
      (by decide : (Memory.empty 0 0xff 0).lo ≤ (Memory.empty 0 0xff 0).hi)
  obtain rfl : .fresh lateReader {} (.empty 0 0xff 0) () () = b :=
    (start_eq_ok_iff.mp hstart).2.2.symm
  have hfinal : final.verdict = some .fail := by
    have h : (shortRig.run (.fresh lateReader {} (.empty 0 0xff 0) () ())).2.verdict =
      some .fail := rfl
    rwa [hrun] at h
  have hticks : report.ticks = 3 := by
    have h : (shortRig.run (.fresh lateReader {} (.empty 0 0xff 0) () ())).1.map Report.ticks =
      .ok 3 := rfl
    rw [hrun] at h
    exact Except.ok.inj h
  obtain ⟨s, hs, hsight, _⟩ := (hverdict .fail).mp hfinal
  obtain rfl : s = 2 := by omega
  exact ⟨quiet, rfl, by decide, _, report, final, hstart, hrun, hsight, rfl, hticks,
    houtcome .fail hfinal⟩

end Rig

end BusBench

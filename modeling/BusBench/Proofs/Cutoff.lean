import BusBench.Proofs.RunLaw

namespace BusBench

/-- What the same bus has served later on: no less, and the refusals so far come first. -/
structure BusStats.Extends (later earlier : BusStats) : Prop where
  reads : earlier.reads ≤ later.reads
  writes : earlier.writes ≤ later.writes
  violations : earlier.violations <+: later.violations

theorem BusStats.Extends.refl (s : BusStats) : s.Extends s :=
  ⟨le_rfl, le_rfl, List.prefix_refl _⟩

theorem BusStats.Extends.trans {s t u : BusStats} (h : u.Extends t) (g : t.Extends s) :
    u.Extends s :=
  ⟨g.reads.trans h.reads, g.writes.trans h.writes, g.violations.trans h.violations⟩

namespace Bus

theorem refuse_extends (b : Bus) (t : Nat) (channel : Channel) (addr : Word) (e : MemoryError) :
    (b.refuse t channel addr e).stats.Extends b.stats :=
  ⟨le_rfl, le_rfl, List.prefix_append ..⟩

theorem answerRead_extends (b : Bus) (data : Word) : (b.answerRead data).stats.Extends b.stats :=
  ⟨Nat.le_succ _, le_rfl, List.prefix_refl _⟩

theorem answerWrite_extends (b : Bus) : b.answerWrite.stats.Extends b.stats :=
  ⟨le_rfl, Nat.le_succ _, List.prefix_refl _⟩

theorem serveRead_extends (t : Nat) (b : Bus) : (serveRead t b).stats.Extends b.stats := by
  unfold serveRead
  split
  next =>
    cases h : b.memory.load b.pins.readAddr.align with
    | ok data => simpa only [h] using answerRead_extends b data
    | error e => simpa only [h] using (answerRead_extends ..).trans (refuse_extends ..)
  next => exact .refl _

theorem serveWrite_extends (t : Nat) (b : Bus) : (serveWrite t b).stats.Extends b.stats := by
  unfold serveWrite
  split
  next =>
    cases h : mergeStore b.memory b.pins.writeAddr.align b.pins.writeData b.pins.writeStrobe with
    | ok memory => simpa only [h] using answerWrite_extends { b with memory }
    | error e => simpa only [h] using (answerWrite_extends _).trans (refuse_extends ..)
  next => exact .refl _

theorem respond_extends (t : Nat) (b : Bus) : (respond t b).stats.Extends b.stats :=
  (serveWrite_extends ..).trans (serveRead_extends ..)

end Bus

namespace Rig

variable {σ τ κ : Type} {r : Rig σ τ κ} {b c d : Bench σ τ κ}

/-- The rig with another timeout. -/
def withTimeout (r : Rig σ τ κ) (n : Nat) : Rig σ τ κ :=
  { r with settings := { r.settings with timeout := n } }

theorem clockTick_extends : (r.clockTick b).bus.stats.Extends b.bus.stats := by
  rw [clockTick_stats]
  split
  next => exact Bus.respond_extends b.tick (r.drive b).bus
  next => exact .refl _

theorem after_extends {m n : Nat} (h : m ≤ n) :
    (r.after b n).bus.stats.Extends (r.after b m).bus.stats := by
  induction n, h using Nat.le_induction with
  | base => exact .refl _
  | succ n _ ih => exact (clockTick_extends (b := r.after b n)).trans ih

theorem start_withTimeout {device : σ} {pins : Pins} {memory : Memory} {trace : τ} {coverage : κ}
    {n : Nat} (h : r.start device pins memory trace coverage = .ok b) (hn : 0 < n) :
    (r.withTimeout n).start device pins memory trace coverage = .ok b := by
  obtain ⟨hset, hmem, hb⟩ := start_eq_ok_iff.mp h
  obtain ⟨hs, hp, _⟩ := Settings.check_eq_ok_iff.mp hset
  exact start_eq_ok_iff.mpr ⟨Settings.check_eq_ok_iff.mpr ⟨hs, hp, hn⟩, hmem, hb⟩

theorem termination_withTimeout {n : Nat} {o : Outcome} (h : r.termination b = some o)
    (ho : o ≠ .fail .timeout) : (r.withTimeout n).termination b = some o := by
  unfold termination at h ⊢
  cases hv : b.verdict with
  | some v => cases v <;> simpa [hv] using h
  | none =>
    simp only [hv] at h ⊢
    by_cases hf : r.device.finished b.device b.bus.pins = true
    · rw [if_pos hf] at h
      rw [← h]
      exact if_pos hf
    · rw [if_neg hf] at h
      split at h
      next => exact absurd (Option.some.inj h).symm ho
      next => cases h

theorem teardown_withTimeout {n : Nat}
    (h : (r.withTimeout n).termination b = r.termination b) :
    (r.withTimeout n).teardown b = r.teardown b := by
  unfold teardown conclude
  rw [h]
  rfl

/-- A bench that goes on is stopped by another timeout only. -/
theorem stops_withTimeout (h : ¬ r.Stops b) (n : Nat) :
    (r.withTimeout n).Stops b ↔ n ≤ b.tick := by
  rw [stops_iff] at h ⊢
  obtain ⟨hp, hv, hf, _⟩ := by simpa only [not_or] using h
  simp [withTimeout, hp, hv, hf]

theorem Ticks.withTimeout {n k : Nat} (h : r.Ticks b k c) (hn : b.tick + k ≤ n) :
    (r.withTimeout n).Ticks b k c := by
  induction h with
  | none => exact .none
  | @next k c d hc hstep ih =>
    refine .next (ih (by omega)) ?_
    have hgoes : ¬ r.Stops c := by
      intro hs
      rw [step_of_stops hs] at hstep
      cases hstep
    have hgoes' : ¬ (r.withTimeout n).Stops c := by
      rw [stops_withTimeout hgoes, hc.tick_eq]
      omega
    rw [step_of_goes hgoes] at hstep
    rw [step_of_goes hgoes']
    exact hstep

theorem Ticks.extends {n k : Nat} (hc : r.Ticks b k c) (hd : r.Ticks b n d) (hn : n ≤ k) :
    c.bus.stats.Extends d.bus.stats := by
  rw [hc.eq_after, hd.eq_after]
  exact after_extends hn

/-- What a run that its time does not end gives with any time that is as long. -/
theorem Ticks.run_in_time {n k : Nat} {o : Outcome} (hc : r.Ticks b k c) (hb : b.report = .none)
    (ho : r.termination c = some o) (hne : o ≠ .fail .timeout) (hn : b.tick + k ≤ n) :
    (r.withTimeout n).run b = r.teardown c.halt := by
  have hcut := termination_withTimeout (n := n) ho hne
  have hstop : (r.withTimeout n).Stops c := .inr (by rw [hcut]; rfl)
  rw [(hc.withTimeout hn).run_of_stops hstop hb]
  exact teardown_withTimeout (b := c.halt) (hcut.trans ho.symm)

/-- What a run that makes more than `n` ticks gives if its time is over after `n`. -/
theorem Ticks.run_cut_off {good : τ → Prop} {n k : Nat} (hc : r.Ticks b k c)
    (quiet : r.Quiet good) (hgood : good b.trace) (ht : b.tick = 0) (hb : b.report = .none)
    (hn : n < k) :
    ∃ cut short, (r.withTimeout n).run b = (.ok cut, short) ∧ cut.outcome = .fail .timeout ∧
      cut.ticks = n ∧ c.bus.stats.Extends cut.bus := by
  obtain ⟨d, hd⟩ := hc.take hn.le
  -- the longer run goes on from here, so the time that is over is all that stops the shorter one
  have hgoes : ¬ r.Stops d := fun hstop => hc.not_stops hn (stops_after hd hstop)
  have htick : d.tick = n := by rw [hd.tick_eq, ht, Nat.zero_add]
  have hstop : (r.withTimeout n).Stops d := (stops_withTimeout hgoes n).mpr htick.ge
  have hlong : b.tick + n ≤ n := by rw [ht, Nat.zero_add]
  have hdown := teardown_ok (r := r.withTimeout n) (b := d.halt)
    (quiet.close d.trace (hd.good quiet hgood)) (quiet.write d.coverage)
  refine ⟨(r.withTimeout n).conclude d, ((r.withTimeout n).teardown d.halt).2, ?_, ?_, htick, ?_⟩
  · rw [(hd.withTimeout hlong).run_of_stops hstop hb]
    exact Prod.ext hdown rfl
  · rw [stops_iff] at hgoes
    obtain ⟨_, hverdict, hfinished, _⟩ := by simpa only [not_or, not_not] using hgoes
    exact outcome_of_timeout hverdict hfinished htick.ge
  · exact hc.extends hd hn.le

/-- A run that its time does not end is the same with any time that is as long; with less, it is
over when that time is, with what it had served by then. -/
theorem timeout_only_cuts_off {good : τ → Prop} {device : σ} {pins : Pins} {memory : Memory}
    {trace : τ} {coverage : κ} {report : Report} {final : Bench σ τ κ} (quiet : r.Quiet good)
    (hgood : good trace) (hstart : r.start device pins memory trace coverage = .ok b)
    (hrun : r.run b = (.ok report, final)) (houtcome : report.outcome ≠ .fail .timeout) :
    (∀ n, 0 < n → (r.withTimeout n).start device pins memory trace coverage = .ok b) ∧
      (∀ n, report.ticks ≤ n → (r.withTimeout n).run b = (.ok report, final)) ∧
      ∀ n, n < report.ticks → ∃ cut short, (r.withTimeout n).run b = (.ok cut, short) ∧
        cut.outcome = .fail .timeout ∧ cut.ticks = n ∧ report.bus.Extends cut.bus := by
  obtain ⟨_, _, rfl⟩ := start_eq_ok_iff.mp hstart
  obtain ⟨k, c, hc, hs, hdown⟩ := run_ok_ticks rfl hrun
  have hreport : report = r.conclude c := teardown_report (b := c.halt) (by rw [hdown])
  have hticks : report.ticks = k := by
    rw [hreport]
    exact hc.tick_eq.trans (Nat.zero_add k)
  refine ⟨fun n hn => start_withTimeout hstart hn, ?_, ?_⟩
  · intro n hn
    obtain ⟨o, ho⟩ : ∃ o, r.termination c = some o := by
      rcases hs with hp | hsome
      · rw [hc.eq_after] at hp
        exact absurd hp (after_phase (by simp [Bench.fresh]) k)
      · exact Option.isSome_iff_exists.mp hsome
    have hne : o ≠ .fail .timeout := by
      rwa [hreport, conclude, ho] at houtcome
    have hlong : (Bench.fresh device pins memory trace coverage).tick + k ≤ n := by
      rw [← hticks]
      exact (Nat.zero_add _).trans_le hn
    exact (hc.run_in_time rfl ho hne hlong).trans hdown
  · intro n hn
    rw [hticks] at hn
    rw [hreport]
    exact hc.run_cut_off quiet hgood rfl rfl hn

theorem timeout_only_cuts_off_at_coincidence :
    shortRig.Quiet (fun _ => True) ∧
      shortRig.start lateReader {} (.empty 0 0xff 0) () () =
        .ok (.fresh lateReader {} (.empty 0 0xff 0) () ()) ∧
      ∃ report final,
        shortRig.run (.fresh lateReader {} (.empty 0 0xff 0) () ()) = (.ok report, final) ∧
        report.outcome = .fail .sentinel ∧ report.ticks = shortRig.settings.timeout ∧
        report.bus.reads = 1 ∧
        (shortRig.withTimeout 7).run (.fresh lateReader {} (.empty 0 0xff 0) () ()) =
          (.ok report, final) ∧
        ∃ cut short, (shortRig.withTimeout 2).run (.fresh lateReader {} (.empty 0 0xff 0) () ()) =
            (.ok cut, short) ∧
          cut.outcome = .fail .timeout ∧ cut.ticks = 2 ∧ report.bus.Extends cut.bus := by
  have quiet : shortRig.Quiet fun _ => True := quiet_of_no_sinks ..
  have hstart : shortRig.start lateReader {} (.empty 0 0xff 0) () () =
    .ok (.fresh lateReader {} (.empty 0 0xff 0) () ()) := rfl
  obtain ⟨report, final, hrun, houtcome, hticks, hreads⟩ : ∃ report final,
    shortRig.run (.fresh lateReader {} (.empty 0 0xff 0) () ()) = (.ok report, final) ∧
      report.outcome = .fail .sentinel ∧ report.ticks = 3 ∧ report.bus.reads = 1 :=
    ⟨_, _, rfl, rfl, rfl, rfl⟩
  obtain ⟨_, hlong, hshort⟩ := timeout_only_cuts_off quiet (trivial : (fun _ => True) ()) hstart hrun
    (by rw [houtcome]; decide)
  exact ⟨quiet, hstart, report, final, hrun, houtcome, hticks, hreads, hlong 7 (by omega),
    hshort 2 (by omega)⟩

end Rig

end BusBench

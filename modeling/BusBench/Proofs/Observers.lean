import BusBench.CallCount
import BusBench.Coverage
import BusBench.Proofs.RunLaw

namespace BusBench

section

variable {τ κ : Type}

/-- Shows samples to a trace one after the other, up to the first that it fails on. -/
def TraceSink.feed (t : TraceSink τ) : List (Nat × Pins) → τ → Except Fault Unit × τ
  | [], s => (.ok (), s)
  | (tick, p) :: rest, s =>
    match t.sample tick p s with
    | (.ok (), s) => t.feed rest s
    | (.error e, s) => (.error e, s)

/-- Shows samples to a coverage one after the other. -/
def CoverageSink.feed (c : CoverageSink κ) (samples : List (Nat × Pins)) (s : κ) : κ :=
  samples.foldl (fun s (tick, p) => c.sample tick p s) s

theorem TraceSink.feed_append (t : TraceSink τ) (earlier later : List (Nat × Pins)) (s : τ) :
    t.feed (earlier ++ later) s =
      match t.feed earlier s with
      | (.ok (), u) => t.feed later u
      | (.error e, u) => (.error e, u) := by
  induction earlier generalizing s with
  | nil => rfl
  | cons x rest ih =>
    rw [List.cons_append, feed, feed]
    rcases t.sample x.1 x.2 s with ⟨_ | _, u⟩
    · rfl
    · exact ih u

theorem TraceSink.feed_concat {t : TraceSink τ} {samples : List (Nat × Pins)} {tick : Nat} {p : Pins}
    {s : τ} (h : (t.feed (samples ++ [(tick, p)]) s).1 = .ok ()) :
    (t.feed samples s).1 = .ok () ∧
      t.sample tick p (t.feed samples s).2 = (.ok (), (t.feed (samples ++ [(tick, p)]) s).2) := by
  rw [feed_append] at h ⊢
  rcases hfeed : t.feed samples s with ⟨_ | _, u⟩
  · rw [hfeed] at h
    cases h
  · rw [hfeed] at h
    refine ⟨rfl, ?_⟩
    simp only [feed] at h ⊢
    rcases hs : t.sample tick p u with ⟨_ | _, w⟩
    · rw [hs] at h
      cases h
    · rfl

end

section

variable {σ τ κ : Type}

/-- The rig without its sinks. -/
def Rig.bare (r : Rig σ τ κ) : Rig σ Unit Unit := ⟨r.device, .none, .none, r.settings⟩

/-- The bench without its sinks. -/
def Bench.bare (b : Bench σ τ κ) : Bench σ Unit Unit := { b with trace := (), coverage := () }

end

namespace Rig

variable {σ τ κ : Type} {r : Rig σ τ κ} {b c : Bench σ τ κ}

/-- What the ticks from a fresh bench on show to the sinks: the pins as the device leaves them. -/
def samples (r : Rig σ τ κ) (b : Bench σ τ κ) (n : Nat) : List (Nat × Pins) :=
  (List.range n).map fun t =>
    (t, (r.device.evaluate (r.after b t).device (r.served (r.after b t)).pins).2)

theorem samples_succ (n : Nat) :
    r.samples b (n + 1) = r.samples b n ++ [(n, (r.clockTick (r.after b n)).bus.pins)] := by
  rw [clockTick_bus, samples, List.range_succ, List.map_append]
  rfl

theorem clockTick_bare : (r.clockTick b).bare = r.bare.clockTick b.bare := by
  have hdrive : (r.drive b).bare = r.bare.drive b.bare := rfl
  have hserve : (r.serve (r.drive b)).bare = r.bare.serve (r.drive b).bare := by
    by_cases h : r.settings.schedule.risesAt (r.drive b).tick = true
    · rw [serve_of_rises h,
        serve_of_rises (r := r.bare) (b := (r.drive b).bare) h]
      rfl
    · rw [serve_of_flat h, serve_of_flat (r := r.bare) (b := (r.drive b).bare) h]
  rw [clockTick, clockTick, ← hdrive, ← hserve]
  rfl

theorem after_bare (n : Nat) : (r.after b n).bare = r.bare.after b.bare n := by
  induction n with
  | zero => rfl
  | succ n ih =>
    rw [after, after, ← ih, ← clockTick_bare]
    rfl

theorem samples_bare (n : Nat) : r.bare.samples b.bare n = r.samples b n := by
  induction n with
  | zero => rfl
  | succ n ih =>
    rw [samples_succ, samples_succ, ih, ← after_bare, ← clockTick_bare]
    rfl

/-- A step whose sample is taken goes on whatever the sinks were in before. -/
theorem step_withSinks {n : Nat} {s u : τ} (k : κ) (ht : b.tick = n) (h : ¬ r.Stops b)
    (hs : r.trace.sample n (r.clockTick b).bus.pins s = (.ok (), u)) :
    r.step (b.withSinks s k) =
      (.ok .continued,
        { (r.clockTick b).withSinks u (r.coverage.sample n (r.clockTick b).bus.pins k) with
          tick := n + 1 }) := by
  rw [step_of_goes (show ¬ r.Stops (b.withSinks s k) from h), clockTick_withSinks, record]
  simp only [Bench.withSinks, clockTick_tick, ht, hs]

/-- As long as nothing stops a run and its samples are taken, its ticks go on. -/
theorem ticks_of_feed (ht : b.tick = 0) {n : Nat} (goes : ∀ m < n, ¬ r.Stops (r.after b m))
    (hfeed : (r.trace.feed (r.samples b n) b.trace).1 = .ok ()) :
    r.Ticks b n ((r.after b n).withSinks (r.trace.feed (r.samples b n) b.trace).2
      (r.coverage.feed (r.samples b n) b.coverage)) := by
  induction n with
  | zero => exact .none
  | succ n ih =>
    have hsamples := samples_succ (r := r) (b := b) n
    have htick : (r.after b n).tick = n := after_tick_of_zero ht n
    rw [hsamples] at hfeed
    obtain ⟨hbefore, hsample⟩ := TraceSink.feed_concat hfeed
    have hcoverage : r.coverage.feed (r.samples b (n + 1)) b.coverage =
        r.coverage.sample n (r.clockTick (r.after b n)).bus.pins
          (r.coverage.feed (r.samples b n) b.coverage) := by
      rw [hsamples, CoverageSink.feed, List.foldl_append]
      rfl
    -- the sinks take this sample in the states that the earlier ones have left them in
    refine .next (ih (fun m hm => goes m (by omega)) hbefore) ?_
    rw [hcoverage, hsamples, step_withSinks _ htick (goes n (Nat.lt_add_one n)) hsample, after, htick]
    rfl

theorem samples_add (m n : Nat) : ∃ later, r.samples b (m + n) = r.samples b m ++ later := by
  induction n with
  | zero => exact ⟨[], (List.append_nil _).symm⟩
  | succ n ih =>
    obtain ⟨later, hlater⟩ := ih
    exact ⟨later ++ _, by rw [← Nat.add_assoc, samples_succ, hlater, List.append_assoc]⟩

theorem Ticks.clocked {n : Nat} (h : r.Ticks b n c) (ht : b.tick = 0) :
    c.tick = n ∧ (r.clockTick c).bus.pins = (r.clockTick (r.after b n)).bus.pins := by
  refine ⟨by rw [h.tick_eq, ht, Nat.zero_add], ?_⟩
  rw [h.eq_after, clockTick_withSinks]
  rfl

/-- The trace has taken a sample of every tick so far. -/
theorem Ticks.feed_eq {n : Nat} (h : r.Ticks b n c) (ht : b.tick = 0) :
    r.trace.feed (r.samples b n) b.trace = (.ok (), c.trace) := by
  induction h with
  | none => rfl
  | @next n c d hc hstep ih =>
    obtain ⟨htick, hpins⟩ := hc.clocked ht
    rcases step_cases hstep with ⟨hr, _⟩ | ⟨_, hsample, _⟩
    · cases hr
    · rw [htick, hpins] at hsample
      simp only [samples_succ, TraceSink.feed_append, ih, TraceSink.feed, hsample]
      rfl

/-- What a run leaves of its trace: it is shown a sample of every tick up to the end of the run, or
up to the first that it fails on, and is closed. -/
theorem run_trace {n : Nat} (ht : b.tick = 0) (hb : b.report = none)
    (hs : r.Stops (r.after b n)) (goes : ∀ m < n, ¬ r.Stops (r.after b m)) :
    (r.run b).2.trace = (r.trace.close (r.trace.feed (r.samples b n) b.trace).2).2 := by
  obtain ⟨m, c, hc, ⟨hstop, hrun⟩ | ⟨e, d, hstep, hrun⟩⟩ := run_cases (r := r) hb
  · have hnm : m = n := by
      have hle : ¬ n < m := fun hlt => hc.not_stops hlt hs
      have hge : ¬ m < n := fun hlt => goes m hlt (stops_after hc hstop)
      omega
    rw [hrun, ← hnm, hc.feed_eq ht]
    rfl
  · obtain ⟨htick, hpins⟩ := hc.clocked ht
    rcases step_cases hstep with ⟨hr, _⟩ | ⟨hgoes, hsample, _⟩
    · cases hr
    · have hgoes' : ¬ r.Stops (r.after b m) := by
        rw [hc.eq_after] at hgoes
        exact hgoes
      have hlt : m < n := by
        by_contra hle
        rcases Nat.lt_or_eq_of_le (Nat.le_of_not_lt hle) with hlt | rfl
        · exact hc.not_stops hlt hs
        · exact hgoes' hs
      obtain ⟨k, rfl⟩ := Nat.exists_eq_add_of_lt hlt
      obtain ⟨later, hlater⟩ := samples_add (r := r) (b := b) (m + 1) k
      have hfeed : r.trace.feed (r.samples b (m + 1)) b.trace = (.error e, d.trace) := by
        rw [htick, hpins] at hsample
        simp only [samples_succ, TraceSink.feed_append, hc.feed_eq ht, TraceSink.feed, hsample]
        rfl
      simp only [hrun, Nat.add_right_comm m k 1, hlater, TraceSink.feed_append, hfeed]
      rfl

/-- Every run has an end that its sinks have no part in. -/
theorem exists_first_stop (ht : b.tick = 0) :
    ∃ n, r.Stops (r.after b n) ∧ ∀ m < n, ¬ r.Stops (r.after b m) := by
  classical
  have hend : ∃ n, r.Stops (r.after b n) := by
    refine ⟨r.settings.timeout, stops_iff.mpr (.inr (.inr (.inr ?_)))⟩
    rw [after_tick_of_zero ht]
  exact ⟨Nat.find hend, Nat.find_spec hend, fun m hm => Nat.find_min hend hm⟩

/-- Sinks that take their samples leave a run as it is without them, even if they cannot be closed
or written: each is shown the pins of every tick once, in order, as the device leaves them. -/
theorem sinks_only_observe (device : σ) (pins : Pins) {memory : Memory} (trace : τ) (coverage : κ)
    (hset : r.settings.check = .ok ()) (hmem : memory.lo ≤ memory.hi) :
    ∃ b plain report ended, r.start device pins memory trace coverage = .ok b ∧
      r.bare.start device pins memory () () = .ok plain ∧ r.bare.run plain = (.ok report, ended) ∧
      ((r.trace.feed (r.bare.samples plain report.ticks) trace).1 = .ok () →
        ∃ result final, r.run b = (result, final) ∧ final.bare = ended ∧
          final.report = some report ∧ r.run final = (.ok report, final) ∧
          final.trace =
            (r.trace.close (r.trace.feed (r.bare.samples plain report.ticks) trace).2).2 ∧
          final.coverage =
            (r.coverage.write (r.coverage.feed (r.bare.samples plain report.ticks) coverage)).2) := by
  let b : Bench σ τ κ := .fresh device pins memory trace coverage
  have hstart := start_eq_ok_iff (r := r) (b := b).mpr ⟨hset, hmem, rfl⟩
  have hplain : r.bare.start device pins memory () () = .ok b.bare :=
    start_eq_ok_iff.mpr ⟨hset, hmem, rfl⟩
  have quiet : r.bare.Quiet fun _ => True := quiet_of_no_sinks ..
  obtain ⟨n, c, hc, hs, hrun⟩ := run_quiet (b := b.bare) quiet trivial rfl
  obtain rfl : c = (r.after b n).bare := hc.eq_after.trans (after_bare n).symm
  have hticks : (r.bare.conclude (r.after b n).bare).ticks = n := hc.tick_eq.trans (Nat.zero_add n)
  refine ⟨b, b.bare, r.bare.conclude (r.after b n).bare, _, hstart, hplain, hrun, ?_⟩
  rw [hticks, samples_bare]
  intro hfeed
  have goes : ∀ m < n, ¬ r.Stops (r.after b m) := by
    intro m hm hstop
    apply hc.not_stops hm
    rw [← after_bare]
    exact hstop
  have hrun' := (ticks_of_feed (b := b) rfl goes hfeed).run_of_stops hs rfl
  exact ⟨_, _, hrun', rfl, rfl, rfl, rfl, rfl⟩

/-- The short rig with a trace that cannot be closed and with coverage. -/
def watchedRig : Rig Playback CallCount Coverage :=
  ⟨Playback.device, CallCount.sink none true, Coverage.sink, shortRig.settings⟩

theorem sinks_only_observe_when_close_fails :
    watchedRig.settings.check = .ok () ∧ (Memory.empty 0 0xff 0).lo ≤ (Memory.empty 0 0xff 0).hi ∧
      ∃ report final,
        watchedRig.run (.fresh lateReader {} (.empty 0 0xff 0) {} {}) =
          (.error (.refused "close failed"), final) ∧
        report.outcome = .fail .sentinel ∧ report.ticks = 3 ∧ final.report = some report ∧
        watchedRig.run final = (.ok report, final) ∧ final.trace = ⟨3, 1⟩ ∧
        final.coverage.samples = 3 := by
  obtain ⟨b, plain, report, ended, hstart, hplain, hrun, hobserve⟩ :=
    sinks_only_observe (r := watchedRig) lateReader {} {} {} rfl
      (by decide : (Memory.empty 0 0xff 0).lo ≤ (Memory.empty 0 0xff 0).hi)
  obtain rfl : .fresh lateReader {} (.empty 0 0xff 0) {} {} = b := (start_eq_ok_iff.mp hstart).2.2.symm
  obtain rfl : .fresh lateReader {} (.empty 0 0xff 0) () () = plain :=
    (start_eq_ok_iff.mp hplain).2.2.symm
  obtain ⟨known, hknown, houtcome, hticks⟩ : ∃ known,
    (watchedRig.bare.run (.fresh lateReader {} (.empty 0 0xff 0) () ())).1 = .ok known ∧
      known.outcome = .fail .sentinel ∧ known.ticks = 3 := ⟨_, rfl, rfl, rfl⟩
  obtain rfl : report = known := by
    rw [hrun] at hknown
    exact Except.ok.inj hknown
  rw [hticks] at hobserve
  obtain ⟨result, final, hfirst, _, hreport, hsecond, htrace, hcoverage⟩ := hobserve rfl
  have hresult : result = .error (.refused "close failed") := by
    have h : (watchedRig.run (.fresh lateReader {} (.empty 0 0xff 0) {} {})).1 =
      .error (.refused "close failed") := rfl
    rwa [hfirst] at h
  subst hresult
  exact ⟨rfl, by decide, report, final, hfirst, houtcome, hticks, hreport, hsecond, htrace,
    by rw [hcoverage]; rfl⟩

end Rig

end BusBench

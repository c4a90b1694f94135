import BusBench.Proofs.FailedTick
import BusBench.Proofs.RunLaw
import BusBench.Proofs.Teardown

namespace BusBench

namespace Rig

variable {σ τ κ : Type} {r : Rig σ τ κ} {b c d : Bench σ τ κ}

theorem halt_of_halted (h : c.phase = .halted) : c.halt = c := by
  cases c
  cases h
  rfl

theorem step_of_halted (h : c.phase = .halted) : r.step c = (.ok .done, c) := by
  rw [step_of_stops (.inl h), halt_of_halted h]

theorem run_of_halted (h : c.phase = .halted) : (r.run c).2.phase = .halted := by
  by_contra hne
  have hsame : (r.run c).2 = c := run_not_halted rfl hne
  rw [hsame] at hne
  exact hne h

theorem replies_append (earlier later : List Request) :
    r.replies b (earlier ++ later) =
      ((r.replies b earlier).1 ++ (r.replies (r.replies b earlier).2 later).1,
        (r.replies (r.replies b earlier).2 later).2) := by
  induction earlier generalizing b with
  | nil => rfl
  | cons request rest ih =>
    cases request with
    | step => rw [List.cons_append, replies_step, ih, replies_step, List.cons_append]
    | run => rw [List.cons_append, replies_run, ih, replies_run, List.cons_append]

/-- Whatever is asked of a halted bench, it stays halted. -/
theorem replies_of_halted (h : c.phase = .halted) (requests : List Request) :
    (r.replies c requests).2.phase = .halted := by
  induction requests generalizing c with
  | nil => exact h
  | cons request rest ih =>
    cases request with
    | step =>
      have hstep : (r.step c).2.phase = .halted := by
        rw [step_of_halted h]
        exact h
      exact ih hstep
    | run => exact ih (run_of_halted h)

theorem replies_steps_of_halted (h : c.phase = .halted) (k : Nat) :
    r.replies c (.replicate k .step) = (.replicate k (.stepped (.ok .done)), c) := by
  induction k with
  | zero => rfl
  | succ k ih =>
    rw [List.replicate_succ, replies_step, step_of_halted h, ih]
    rfl

/-- The ticks after the first `m`. -/
theorem Ticks.split {m n : Nat} (h : r.Ticks b (m + n) c) : ∃ d, r.Ticks b m d ∧ r.Ticks d n c := by
  induction n generalizing c with
  | zero => exact ⟨c, h, .none⟩
  | succ n ih =>
    cases h with
    | next hx hstep =>
      obtain ⟨d, hd, hn⟩ := ih hx
      exact ⟨d, hd, .next hn hstep⟩

theorem Ticks.report_eq {n : Nat} (h : r.Ticks b n c) : c.report = b.report := by
  induction h with
  | none => rfl
  | @next n c d _ hstep ih =>
    have hkeep := step_report (r := r) (b := c)
    rw [hstep] at hkeep
    exact hkeep.trans ih

theorem Ticks.replies_eq {n : Nat} (h : r.Ticks b n c) :
    r.replies b (.replicate n .step) = (.replicate n (.stepped (.ok .continued)), c) := by
  induction h with
  | none => rfl
  | @next n c d _ hstep ih =>
    rw [List.replicate_succ', replies_append, ih, replies_step, hstep, List.replicate_succ']
    rfl

/-- Where a bench is after `k` steps whose run stops after `n` ticks. -/
theorem Ticks.stepped {n : Nat} (h : r.Ticks b n c) (hs : r.Stops c) (hb : b.report = .none)
    (k : Nat) : ∃ d, r.steps k b = (.ok (), d) ∧
      r.replies b (.replicate k .step) = (.replicate (min k n) (.stepped (.ok .continued)) ++
        .replicate (k - n) (.stepped (.ok .done)), d) ∧
      r.run d = r.run b := by
  rcases Nat.lt_or_ge n k with hlt | hle
  · -- the last steps find the bench stopped, and the first of them halts it
    obtain ⟨j, rfl⟩ : ∃ j, k = n + (j + 1) := ⟨k - n - 1, by omega⟩
    have hhalted : c.halt.phase = .halted := rfl
    have hdone : r.replies c (.replicate (j + 1) .step) =
        (.replicate (j + 1) (.stepped (.ok .done)), c.halt) := by
      rw [List.replicate_succ, replies_step, step_of_stops hs, replies_steps_of_halted hhalted]
      rfl
    refine ⟨c.halt, ?_, ?_, ?_⟩
    · rw [Nat.add_comm n, h.steps_eq, steps, step_of_stops hs]
    · rw [List.replicate_add, replies_append, h.replies_eq, hdone, Nat.min_eq_right (by omega),
        Nat.add_sub_cancel_left]
    · have hagain : r.run c.halt = r.teardown c.halt.halt :=
        Ticks.none.run_of_stops (.inl hhalted) (h.report_eq.trans hb)
      rw [hagain, h.run_of_stops hs hb]
      rfl
  · obtain ⟨j, rfl⟩ := Nat.exists_eq_add_of_le hle
    obtain ⟨d, hd, hrest⟩ := h.split
    refine ⟨d, ?_, ?_, ?_⟩
    · have hsteps := hd.steps_eq 0
      rw [Nat.zero_add] at hsteps
      exact hsteps
    · rw [hd.replies_eq, Nat.min_eq_left hle, Nat.sub_eq_zero_of_le hle]
      simp
    · rw [hrest.run_of_stops hs (hd.report_eq.trans hb), h.run_of_stops hs hb]

/-- Without faults of the sinks it makes no difference how often a bench is stepped before it is
run, past the end of the run or not: the run gives the same report and leaves the same bench. And
a step that finds a bench stopped is the last that does anything to it. -/
theorem steps_then_run {good : τ → Prop} (device : σ) (pins : Pins) {memory : Memory} {trace : τ}
    (coverage : κ) (quiet : r.Quiet good) (hgood : good trace) (hset : r.settings.check = .ok ())
    (hmem : memory.lo ≤ memory.hi) :
    ∃ b report final, r.start device pins memory trace coverage = .ok b ∧
      r.run b = (.ok report, final) ∧
      (∀ k, ∃ c, r.steps k b = (.ok (), c) ∧
        r.replies b (.replicate k .step) =
          (.replicate (min k report.ticks) (.stepped (.ok .continued)) ++
            .replicate (k - report.ticks) (.stepped (.ok .done)), c) ∧
        r.run c = (.ok report, final)) ∧
      ∀ x y, r.step x = (.ok .done, y) → ∀ later,
        r.step (r.replies y later).2 = (.ok .done, (r.replies y later).2) := by
  let b : Bench σ τ κ := .fresh device pins memory trace coverage
  obtain ⟨n, c, hc, hs, hrun⟩ := run_quiet (b := b) quiet hgood rfl
  have hticks : (r.conclude c).ticks = n := hc.tick_eq.trans (Nat.zero_add n)
  refine ⟨b, r.conclude c, (r.teardown c.halt).2, start_eq_ok_iff.mpr ⟨hset, hmem, rfl⟩, hrun, ?_, ?_⟩
  · intro k
    rw [hticks, ← hrun]
    exact hc.stepped hs rfl k
  · intro x y hstep later
    have hy : y.phase = .halted := by
      rcases step_cases hstep with ⟨_, _, rfl⟩ | ⟨_, _, ⟨_, hr, _⟩ | ⟨hr, _⟩⟩
      · rfl
      · cases hr
      · cases hr
    exact step_of_halted (replies_of_halted hy later)

/-- The short rig with sinks that do not fail. -/
def countedRig : Rig Playback CallCount Coverage :=
  ⟨Playback.device, CallCount.sink none false, Coverage.sink, shortRig.settings⟩

theorem steps_then_run_of_late_reader :
    countedRig.Quiet (fun _ => True) ∧ countedRig.settings.check = .ok () ∧
      (Memory.empty 0 0xff 0).lo ≤ (Memory.empty 0 0xff 0).hi ∧
      ∃ b report final, countedRig.start lateReader {} (.empty 0 0xff 0) {} {} = .ok b ∧
        countedRig.run b = (.ok report, final) ∧ report.ticks = 3 ∧ final.trace = ⟨3, 1⟩ ∧
        (∃ c, countedRig.steps 2 b = (.ok (), c) ∧ c.phase = .running ∧
          countedRig.run c = (.ok report, final)) ∧
        ∃ c, countedRig.replies b (.replicate 5 .step) =
            ([.stepped (.ok .continued), .stepped (.ok .continued), .stepped (.ok .continued),
              .stepped (.ok .done), .stepped (.ok .done)], c) ∧
          c.phase = .halted ∧ countedRig.run c = (.ok report, final) := by
  have quiet : countedRig.Quiet fun _ => True :=
    ⟨fun _ _ _ _ => ⟨rfl, trivial⟩, fun _ _ => rfl, fun _ => rfl⟩
  obtain ⟨b, report, final, hstart, hrun, hsplit, _⟩ := steps_then_run lateReader {} {} quiet
    (trivial : (fun _ => True) ({} : CallCount)) rfl
    (by decide : (Memory.empty 0 0xff 0).lo ≤ (Memory.empty 0 0xff 0).hi)
  obtain rfl : .fresh lateReader {} (.empty 0 0xff 0) {} {} = b :=
    (start_eq_ok_iff.mp hstart).2.2.symm
  have hfinal : (countedRig.run (.fresh lateReader {} (.empty 0 0xff 0) {} {})).2.trace = ⟨3, 1⟩ :=
    rfl
  have hticks : (countedRig.run (.fresh lateReader {} (.empty 0 0xff 0) {} {})).1.map Report.ticks =
    .ok 3 := rfl
  rw [hrun] at hfinal hticks
  have hthree : report.ticks = 3 := Except.ok.inj hticks
  obtain ⟨c, hc, _, hearly⟩ := hsplit 2
  obtain ⟨d, _, hd, hlate⟩ := hsplit 5
  rw [hthree] at hd
  obtain rfl := congrArg Prod.snd hc
  obtain rfl := congrArg Prod.snd hd
  exact ⟨quiet, rfl, by decide, _, report, final, hstart, hrun, hthree, hfinal,
    ⟨_, hc, rfl, hearly⟩, _, hd, rfl, hlate⟩

end Rig

end BusBench

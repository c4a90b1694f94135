import BusBench.Proofs.Stepping

namespace BusBench

/-- How far along its life a bench is. -/
def Phase.rank : Phase → Nat
  | reset => 0
  | running => 1
  | halted => 2

theorem Phase.rank_le_halted (p : Phase) : p.rank ≤ Phase.halted.rank := by
  cases p <;> decide

/-- A count that stays below 64 bits is not cut off. -/
theorem toNat_ofNat_add_one {n : Nat} (h : n + 1 < UInt64.size) :
    (UInt64.ofNat n + 1).toNat = n + 1 := by
  have hsum : UInt64.ofNat n + 1 = UInt64.ofNat (n + 1) := (UInt64.ofNat_add n 1).symm
  rw [hsum]
  exact UInt64.toNat_ofNat_of_lt h

/-- A diary keeps what a bench does to the pins, the bus and the device on a tick, with the tick. -/
def Act.dated (tick : Nat) : Act → List (Nat × Act)
  | .drive => [(tick, .drive)]
  | .call c => [(tick, .call c)]
  | _ => []

theorem dated_of_teardown {acts : List (Nat × Act)} (h : ∀ e ∈ acts, e.2 ∈ Act.ofTeardown) :
    (acts.flatMap fun (tick, act) => act.dated tick) = [] := by
  rw [List.flatMap_eq_nil_iff]
  rintro ⟨tick, act⟩ he
  have hact := h _ he
  cases act with
  | close | finalize | write => rfl
  | _ => simp [Act.ofTeardown] at hact

namespace Rig

variable {σ τ κ : Type} (r : Rig σ τ κ)

/-- A step that keeps a diary. -/
def stepNoted (b : Bench σ τ κ) : Journaled (Nat × Act) (Except Fault Progress × Bench σ τ κ) :=
  r.stepWith Act.dated b

/-- A run that keeps a diary. -/
def runNoted (b : Bench σ τ κ) : Journaled (Nat × Act) (Except Fault Report × Bench σ τ κ) :=
  r.runWith Act.dated b

/-- The replies of a bench that keeps a diary. -/
def repliesNoted (b : Bench σ τ κ) (requests : List Request) :
    Journaled (Nat × Act) (List Reply × Bench σ τ κ) :=
  r.repliesWith Act.dated b requests

variable {r} {b c d : Bench σ τ κ} (diary : List (Nat × Act))

theorem mem_actsAt_drive {t tick : Nat} : (t, Act.drive) ∈ r.actsAt tick ↔ t = tick := by
  unfold actsAt
  cases r.settings.schedule.risesAt tick <;> simp

/-- Of what a tick does, showing the pins to the sinks is left out. -/
theorem tick_dated (tick : Nat) : ((r.actsAt tick ++ r.shows b).flatMap
    fun (tick, act) => act.dated tick) = r.actsAt tick := by
  have hacts : ((r.actsAt tick).flatMap fun (tick, act) => act.dated tick) = r.actsAt tick := by
    unfold actsAt
    cases r.settings.schedule.risesAt tick <;> rfl
  have hshows : ((r.shows b).flatMap fun (tick, act) => act.dated tick) = [] := by
    unfold shows
    split <;> rfl
  rw [List.flatMap_append, hacts, hshows, List.append_nil]

theorem stepNoted_of_stops (h : r.Stops c) :
    (r.stepNoted c).run diary = ((.ok .done, c.halt), diary) := by
  rw [stepNoted, (stepWith_of_stops Act.dated h).eq_pure, step_of_stops h]
  rfl

theorem stepNoted_of_goes (h : ¬ r.Stops c) :
    (r.stepNoted c).run diary = (r.step c, diary ++ r.actsAt c.tick) := by
  rw [stepNoted, stepWith_of_goes Act.dated h diary, tick_dated]

theorem runNoted_of_report (h : c.report ≠ none) : (r.runNoted c).run diary = (r.run c, diary) := by
  obtain ⟨report, hreport⟩ := Option.ne_none_iff_exists'.mp h
  rw [runNoted, (runWith_of_report Act.dated hreport).eq_pure]
  rfl

/-- Whatever is asked of a halted bench, all that it can still do is to be torn down. -/
theorem repliesWith_of_halted {ν : Type} (note : Nat → Act → List ν) (h : c.phase = .halted)
    (requests : List Request) :
    ∃ acts, Notes note (r.repliesWith note c requests) (r.replies c requests) acts ∧
      ∀ e ∈ acts, e.2 ∈ Act.ofTeardown := by
  induction requests generalizing c with
  | nil => exact ⟨[], .pure _, nofun⟩
  | cons request rest ih =>
    cases request with
    | step =>
      have hstep := stepWith_of_stops (r := r) note (.inl h)
      have hhalted : (r.step c).2.phase = .halted := by
        rw [step_of_stops (.inl h)]
        rfl
      obtain ⟨more, hrest, hmore⟩ := ih hhalted
      exact ⟨more, hstep.bind (hrest.bind_pure _), hmore⟩
    | run =>
      obtain ⟨acts, hrun, hacts⟩ := runWith_of_halted (r := r) note h
      obtain ⟨more, hrest, hmore⟩ := ih (run_of_halted (r := r) h)
      refine ⟨acts ++ more, hrun.bind (hrest.bind_pure _), fun e he => ?_⟩
      exact (List.mem_append.mp he).elim (hacts e) (hmore e)

theorem repliesNoted_of_halted (h : c.phase = .halted) (requests : List Request) :
    (r.repliesNoted c requests).run diary = (r.replies c requests, diary) := by
  obtain ⟨acts, hnotes, hacts⟩ :=
    repliesWith_of_halted (r := r) Act.dated h requests
  rw [repliesNoted, hnotes diary, dated_of_teardown hacts, List.append_nil]

/-- How a step that is not the last one moves a bench on. -/
theorem step_moves (h : ¬ r.Stops c) :
    (r.step c).2.phase = (r.clockTick c).phase ∧
      ((r.step c).1 = .ok .continued ∧ (r.step c).2.tick = c.tick + 1 ∨
        ∃ e, (r.step c).1 = .error e ∧ (r.step c).2.tick = c.tick) := by
  rcases hstep : r.step c with ⟨res, d⟩
  rcases step_cases hstep with ⟨_, hs, _⟩ | ⟨_, _, ⟨e, rfl, hd⟩ | ⟨rfl, hd⟩⟩
  · exact absurd hs h
  · rw [hd]
    exact ⟨rfl, .inr ⟨e, rfl, clockTick_tick⟩⟩
  · rw [hd]
    exact ⟨rfl, .inl ⟨rfl, rfl⟩⟩

/-- A step takes nothing back. -/
theorem step_forward :
    c.phase.rank ≤ (r.step c).2.phase.rank ∧ c.tick ≤ (r.step c).2.tick := by
  by_cases h : r.Stops c
  · rw [step_of_stops h]
    exact ⟨c.phase.rank_le_halted, Nat.le_refl _⟩
  · obtain ⟨hphase, hmoves⟩ := step_moves h
    refine ⟨?_, ?_⟩
    · rw [hphase, clockTick_phase]
      split
      next hreset => simp [hreset.1, Phase.rank]
      next => exact Nat.le_refl _
    · rcases hmoves with ⟨_, htick⟩ | ⟨_, _, htick⟩ <;> omega

/-- A first run halts its bench, which it clocks until the timeout at the most. -/
theorem run_halts (hc : c.report = none) :
    (r.run c).2.phase = .halted ∧ c.tick ≤ (r.run c).2.tick ∧
      (c.tick ≤ r.settings.timeout → (r.run c).2.tick ≤ r.settings.timeout) := by
  obtain ⟨n, x, hx, ⟨_, hrun⟩ | ⟨e, d, hstep, hrun⟩⟩ := run_cases (r := r) hc
  · have htick : (r.run c).2.tick = c.tick + n := by
      rw [hrun]
      exact hx.tick_eq
    have hle := hx.le_timeout
    exact ⟨by rw [hrun]; rfl, by omega, fun _ => by omega⟩
  · have hfailed : d.tick = x.tick :=
      (congrArg Bench.tick (step_failed hstep).2).trans clockTick_tick
    have htick : (r.run c).2.tick = c.tick + n := by
      rw [hrun]
      exact hfailed.trans hx.tick_eq
    have hle := hx.le_timeout
    exact ⟨by rw [hrun]; rfl, by omega, fun _ => by omega⟩

theorem run_forward :
    c.phase.rank ≤ (r.run c).2.phase.rank ∧ c.tick ≤ (r.run c).2.tick := by
  cases hc : c.report with
  | some report =>
    rw [run, hc]
    exact ⟨Nat.le_refl _, Nat.le_refl _⟩
  | none =>
    obtain ⟨hhalted, htick, _⟩ := run_halts (r := r) hc
    rw [hhalted]
    exact ⟨c.phase.rank_le_halted, htick⟩

theorem replies_forward (requests : List Request) :
    c.phase.rank ≤ (r.replies c requests).2.phase.rank ∧ c.tick ≤ (r.replies c requests).2.tick := by
  induction requests generalizing c with
  | nil => exact ⟨Nat.le_refl _, Nat.le_refl _⟩
  | cons request rest ih =>
    cases request with
    | step =>
      obtain ⟨hphase, htick⟩ := ih (c := (r.step c).2)
      obtain ⟨hstep, hstepped⟩ := step_forward (r := r) (c := c)
      exact ⟨hstep.trans hphase, hstepped.trans htick⟩
    | run =>
      obtain ⟨hphase, htick⟩ := ih (c := (r.run c).2)
      obtain ⟨hrun, hran⟩ := run_forward (r := r) (c := c)
      exact ⟨hrun.trans hphase, hran.trans htick⟩

/-- What holds of a bench and its diary between any two requests. -/
structure Aged (r : Rig σ τ κ) (c : Bench σ τ κ) (diary : List (Nat × Act)) : Prop where
  tick : c.tick ≤ r.settings.timeout
  report : c.report ≠ none → c.phase = .halted
  phase : c.phase ≠ .halted →
    (c.phase = .reset ↔ ∀ t, (t, Act.drive) ∈ diary → t ≤ r.settings.schedule.resetTicks)

namespace Aged

variable {diary}

theorem step (h : r.Aged c diary) : r.Aged (r.step c).2 ((r.stepNoted c).run diary).2 := by
  by_cases hs : r.Stops c
  · rw [stepNoted_of_stops diary hs, step_of_stops hs]
    exact ⟨h.tick, fun _ => rfl, fun hne => absurd rfl hne⟩
  · have hlive : c.phase ≠ .halted := fun hp => hs (.inl hp)
    have hlt := tick_lt_timeout hs
    obtain ⟨hphase, hmoves⟩ := step_moves hs
    rw [stepNoted_of_goes diary hs]
    refine ⟨?_, ?_, fun _ => ?_⟩
    · rcases hmoves with ⟨_, htick⟩ | ⟨_, _, htick⟩ <;> omega
    · rw [step_report]
      exact fun hreport => absurd (h.report hreport) hlive
    · -- the tick is driven whether or not its sample fails
      have hbefore := h.phase hlive
      have hnow : (r.clockTick c).phase = .reset ↔
          c.phase = .reset ∧ c.tick ≤ r.settings.schedule.resetTicks := by
        rw [clockTick_phase, Schedule.resetAt]
        by_cases hp : c.phase = .reset <;>
          by_cases ht : c.tick ≤ r.settings.schedule.resetTicks <;> simp [hp, ht]
      rw [hphase, hnow, hbefore]
      constructor
      · rintro ⟨hold, htick⟩ t ht
        rcases List.mem_append.mp ht with hmem | hmem
        · exact hold t hmem
        · rw [mem_actsAt_drive.mp hmem]
          exact htick
      · intro hall
        exact ⟨fun t ht => hall t (List.mem_append_left _ ht),
          hall c.tick (List.mem_append_right _ (mem_actsAt_drive.mpr rfl))⟩

theorem run (h : r.Aged c diary) : r.Aged (r.run c).2 ((r.runNoted c).run diary).2 := by
  cases hc : c.report with
  | some report =>
    have hne : c.report ≠ none := by simp [hc]
    have hrun := (Settled.mk (h.report hne) hc).run_eq (r := r)
    rw [runNoted_of_report diary hne, hrun]
    exact h
  | none =>
    obtain ⟨hhalted, _, htick⟩ := run_halts (r := r) hc
    exact ⟨htick h.tick, fun _ => hhalted, fun hne => absurd hhalted hne⟩

theorem replies (h : r.Aged c diary) (requests : List Request) :
    r.Aged (r.replies c requests).2 ((r.repliesNoted c requests).run diary).2 := by
  induction requests generalizing c diary with
  | nil => exact h
  | cons request rest ih =>
    cases request with
    | step =>
      have hrest := ih h.step
      rw [← stepWith_gives Act.dated diary] at hrest
      rw [replies_step, ← stepWith_gives Act.dated diary]
      exact hrest
    | run =>
      have hrest := ih h.run
      rw [← runWith_gives Act.dated diary] at hrest
      rw [replies_run, ← runWith_gives Act.dated diary]
      exact hrest

end Aged

/-- Whatever is asked of a bench, and whichever calls of its sinks fail, it never goes back: it is
in reset for as long as no tick after the last of reset has been driven, a tick that failed
included, and once halted it does nothing any more. The tick counts the steps that continued, up
to the timeout, so that 64 bits hold it if they hold the timeout. -/
theorem phases_never_go_back {device : σ} {pins : Pins} {memory : Memory} {trace : τ}
    {coverage : κ} (hstart : r.start device pins memory trace coverage = .ok b)
    (past : List Request) :
    ∃ answers c diary,
      r.replies b past = (answers, c) ∧
      (r.repliesNoted b past).run [] = ((answers, c), diary) ∧
      (c.phase ≠ .halted → (c.phase = .reset ↔
        ∀ t, (t, Act.drive) ∈ diary → t ≤ r.settings.schedule.resetTicks)) ∧
      c.tick ≤ r.settings.timeout ∧
      (∀ later, c.phase.rank ≤ (r.replies c later).2.phase.rank ∧
        c.tick ≤ (r.replies c later).2.tick) ∧
      (∀ res d, r.step c = (res, d) →
        (res = .ok .continued → d.tick = c.tick + 1 ∧
          (r.settings.timeout < UInt64.size → (UInt64.ofNat c.tick + 1).toNat = d.tick)) ∧
        (res ≠ .ok .continued → d.tick = c.tick) ∧
        (res ≠ .ok .done → c.phase ≠ .halted ∧
          (r.stepNoted c).run diary = ((res, d), diary ++ r.actsAt c.tick)) ∧
        (res = .ok .done → d.phase = .halted ∧ (r.stepNoted c).run diary = ((res, d), diary))) ∧
      (c.phase = .halted → ∀ later, (r.replies c later).2.phase = .halted ∧
        (r.repliesNoted c later).run diary = (r.replies c later, diary)) := by
  obtain ⟨_, _, rfl⟩ := start_eq_ok_iff.mp hstart
  generalize hb : Bench.fresh device pins memory trace coverage = b at *
  have hfresh : r.Aged b [] := by
    rw [← hb]
    exact ⟨Nat.zero_le _, fun h => absurd rfl h, fun _ => by simp [Bench.fresh]⟩
  have haged := hfresh.replies past
  have hgives : ((r.repliesNoted b past).run []).1 = r.replies b past :=
    repliesWith_gives Act.dated past []
  rcases hpast : (r.repliesNoted b past).run [] with ⟨⟨answers, c⟩, diary⟩
  rw [hpast] at hgives haged
  rw [← hgives] at haged
  refine ⟨answers, c, diary, hgives.symm, rfl, haged.phase, haged.tick, replies_forward, ?_, ?_⟩
  · intro res d hstep
    by_cases hs : r.Stops c
    · rw [step_of_stops hs] at hstep
      obtain ⟨rfl, rfl⟩ := Prod.mk.inj hstep
      exact ⟨by simp, fun _ => rfl, by simp, fun _ => ⟨rfl, stepNoted_of_stops diary hs⟩⟩
    · have hmoves := (step_moves hs).2
      have hnoted := stepNoted_of_goes (r := r) diary hs
      rw [hstep] at hmoves hnoted
      have hlive : c.phase ≠ .halted := fun hp => hs (.inl hp)
      rcases hmoves with ⟨rfl, htick⟩ | ⟨e, rfl, htick⟩
      · refine ⟨fun _ => ⟨htick, fun hfits => ?_⟩, by simp, fun _ => ⟨hlive, hnoted⟩, by simp⟩
        have hlt := tick_lt_timeout hs
        rw [htick]
        exact toNat_ofNat_add_one (by omega)
      · exact ⟨by simp, fun _ => htick, fun _ => ⟨hlive, hnoted⟩, by simp⟩
  · intro hhalted later
    exact ⟨replies_of_halted hhalted later, repliesNoted_of_halted diary hhalted later⟩

theorem phases_never_go_back_past_failed_tick :
    (flakyRig 1).start asker {} (.empty 0 0xff 0) {} () = .ok (flaky 1 0) ∧
      (∃ c diary, (flakyRig 1).replies (flaky 1 0) [.step] = ([.stepped (.ok .continued)], c) ∧
        ((flakyRig 1).repliesNoted (flaky 1 0) [.step]).run [] =
          ((flakyRig 1).replies (flaky 1 0) [.step], diary) ∧
        c.phase = .reset ∧ ∀ t, (t, Act.drive) ∈ diary → t ≤ 0) ∧
      (∃ c diary, (flakyRig 1).replies (flaky 1 0) [.step, .step] =
          ([.stepped (.ok .continued), .stepped (.error (.refused "disk full"))], c) ∧
        ((flakyRig 1).repliesNoted (flaky 1 0) [.step, .step]).run [] =
          ((flakyRig 1).replies (flaky 1 0) [.step, .step], diary) ∧
        c.phase = .running ∧ c.tick = 1 ∧ ¬ ∀ t, (t, Act.drive) ∈ diary → t ≤ 0) ∧
      ∃ c diary, (flakyRig 1).replies (flaky 1 0) [.step, .run] =
          ([.stepped (.ok .continued), .ran (.error (.refused "disk full"))], c) ∧
        c.phase = .halted ∧ c.tick = 1 ∧
        ∀ later, ((flakyRig 1).repliesNoted c later).run diary =
          ((flakyRig 1).replies c later, diary) := by
  have hstart : (flakyRig 1).start asker {} (.empty 0 0xff 0) {} () = .ok (flaky 1 0) := rfl
  refine ⟨hstart, ?_, ?_, ?_⟩
  · obtain ⟨answers, c, diary, hreplies, hnoted, hphase, _⟩ := phases_never_go_back hstart [.step]
    rw [← hreplies] at hnoted
    obtain rfl := congrArg Prod.snd hreplies
    have hreset : ((flakyRig 1).replies (flaky 1 0) [.step]).2.phase = .reset := rfl
    exact ⟨_, diary, rfl, hnoted, hreset, (hphase (by decide)).mp hreset⟩
  · obtain ⟨answers, c, diary, hreplies, hnoted, hphase, _⟩ :=
      phases_never_go_back hstart [.step, .step]
    rw [← hreplies] at hnoted
    obtain rfl := congrArg Prod.snd hreplies
    have hrunning : ((flakyRig 1).replies (flaky 1 0) [.step, .step]).2.phase ≠ .reset := by decide
    exact ⟨_, diary, rfl, hnoted, rfl, rfl, fun h => hrunning ((hphase (by decide)).mpr h)⟩
  · obtain ⟨answers, c, diary, hreplies, _, _, _, _, _, hhalted⟩ :=
      phases_never_go_back hstart [.step, .run]
    obtain rfl := congrArg Prod.snd hreplies
    exact ⟨_, diary, rfl, rfl, rfl, fun later => (hhalted rfl later).2⟩

end Rig

end BusBench

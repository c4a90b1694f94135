import BusBench.CallCount
import BusBench.Coverage
import BusBench.Playback
import BusBench.Proofs.Journals

namespace BusBench

/-- A log keeps all acts, without their ticks. -/
def Act.logged (_tick : Nat) (act : Act) : List Act := [act]

theorem flatMap_logged (acts : List (Nat × Act)) :
    (acts.flatMap fun (tick, act) => Act.logged tick act) = acts.map Prod.snd :=
  List.map_eq_flatMap.symm

/-- The reply of a bench whose run is over. -/
def Request.settled (report : Report) : Request → Reply
  | .step => .stepped (.ok .done)
  | .run => .ran (.ok report)

theorem converse_settled {m : Type → Type} [Monad m] [LawfulMonad m] {β : Type}
    {step : β → m (Except Fault Progress × β)} {run : β → m (Except Fault Report × β)} {b : β}
    {report : Report} (hstep : step b = pure (.ok .done, b)) (hrun : run b = pure (.ok report, b))
    (requests : List Request) :
    converse step run requests b = pure (requests.map (·.settled report), b) := by
  induction requests with
  | nil => rfl
  | cons request rest ih =>
    cases request <;> simp [converse, hstep, hrun, ih, Request.settled]

namespace Rig

variable {σ τ κ : Type} (r : Rig σ τ κ)

/-- A run that logs its acts. -/
def runLogged (b : Bench σ τ κ) : Journaled Act (Except Fault Report × Bench σ τ κ) :=
  r.runWith Act.logged b

/-- The replies of a bench that logs its acts. -/
def repliesLogged (b : Bench σ τ κ) (requests : List Request) :
    Journaled Act (List Reply × Bench σ τ κ) :=
  r.repliesWith Act.logged b requests

variable {r} {b c d : Bench σ τ κ}

theorem step_report : (r.step b).2.report = b.report := by
  have hserve : (r.serve (r.drive b)).report = b.report := by
    unfold serve
    split <;> rfl
  have htick : (r.clockTick b).report = b.report := hserve
  rcases hstep : r.step b with ⟨res, c⟩
  rcases step_cases hstep with ⟨_, _, rfl⟩ | ⟨_, _, ⟨_, _, hc⟩ | ⟨_, hc⟩⟩
  · rfl
  · rw [hc]
    exact htick
  · rw [hc]
    exact htick

theorem replies_step_report (n : Nat) : (r.replies b (.replicate n .step)).2.report = b.report := by
  induction n generalizing b with
  | zero => rfl
  | succ n ih => exact ih.trans step_report

/-- A bench that has been torn down. -/
structure Settled (b : Bench σ τ κ) (report : Report) : Prop where
  phase : b.phase = .halted
  report : b.report = some report

namespace Settled

variable {report : Report}

theorem halt_eq (h : Settled b report) : b.halt = b := by
  cases b
  cases h.phase
  rfl

theorem step_eq (h : Settled b report) : r.step b = (.ok .done, b) := by
  rw [step_of_stops (.inl h.phase), h.halt_eq]

theorem run_eq (h : Settled b report) : r.run b = (.ok report, b) := by
  rw [run, h.report]

theorem replies_eq (h : Settled b report) (requests : List Request) :
    r.replies b requests = (requests.map (·.settled report), b) := by
  have hreplies : converse (m := Id) (fun b => pure (r.step b)) (fun b => pure (r.run b)) requests b
      = pure (requests.map (·.settled report), b) :=
    converse_settled (congrArg pure h.step_eq) (congrArg pure h.run_eq) requests
  exact congrArg Id.run hreplies

/-- Nothing that is asked of such a bench goes into a journal. -/
theorem repliesWith_eq {ν : Type} (note : Nat → Act → List ν) (h : Settled b report)
    (requests : List Request) :
    r.repliesWith note b requests = pure (requests.map (·.settled report), b) := by
  have hstep := (stepWith_of_stops (r := r) note (.inl h.phase)).eq_pure
  have hrun := (runWith_of_report (r := r) note h.report).eq_pure
  rw [h.step_eq] at hstep
  rw [h.run_eq] at hrun
  exact converse_settled hstep hrun requests

end Settled

theorem teardown_settled : Settled (r.teardown b).2 (r.conclude b) := ⟨rfl, rfl⟩

/-- All that a first run can reply: the fault of a tick, else that of closing, else that of writing,
else the report, which is kept in any case. -/
theorem run_settled (hb : b.report = none) :
    ∃ n c report, r.Ticks b n c ∧ Settled (r.run b).2 report ∧
      ((∃ e d, r.step c = (.error e, d) ∧ (r.run b).1 = .error e) ∨
        (r.Stops c ∧ (r.run b).1 = (r.trace.close c.trace).1 >>= fun _ =>
          (r.coverage.write c.coverage).1 >>= fun _ => .ok report)) := by
  obtain ⟨n, c, hc, ⟨hs, hrun⟩ | ⟨e, d, hstep, hrun⟩⟩ := run_cases (r := r) hb
  · have hresult := congrArg Prod.fst hrun
    rw [teardown_result] at hresult
    exact ⟨n, c, r.conclude c.halt, hc, hrun ▸ teardown_settled, .inr ⟨hs, hresult⟩⟩
  · exact ⟨n, c, r.conclude d.halt, hc, hrun ▸ teardown_settled, .inl ⟨e, d, hstep, by rw [hrun]⟩⟩

/-- However often a bench was stepped before, its first run closes the trace, finalizes the device
and writes the coverage, in this order and whatever fails; nothing before and nothing after does.
From then on the bench stays as it is and repeats its report. -/
theorem teardown_once {device : σ} {pins : Pins} {memory : Memory} {trace : τ} {coverage : κ}
    (hstart : r.start device pins memory trace coverage = .ok b) (n : Nat) (later : List Request) :
    ∃ early c result d before ticks report,
      r.replies b (.replicate n .step) = (early, c) ∧
      (r.repliesLogged b (.replicate n .step)).run [] = ((early, c), before) ∧
      (∀ act ∈ before, act ∉ Act.ofTeardown) ∧
      r.run c = (result, d) ∧
      (r.runLogged c).run before = ((result, d), before ++ ticks ++ [.close, .finalize, .write]) ∧
      (∀ act ∈ ticks, act ∉ Act.ofTeardown) ∧
      (∃ k x, r.Ticks c k x ∧
        ((∃ e y, r.step x = (.error e, y) ∧ result = .error e) ∨
          (r.Stops x ∧ result = (r.trace.close x.trace).1 >>= fun _ =>
            (r.coverage.write x.coverage).1 >>= fun _ => .ok report))) ∧
      d.report = some report ∧
      r.replies d later = (later.map (·.settled report), d) ∧
      ∀ log, (r.repliesLogged d later).run log = ((later.map (·.settled report), d), log) := by
  obtain ⟨_, _, rfl⟩ := start_eq_ok_iff.mp hstart
  generalize hb : Bench.fresh device pins memory trace coverage = b at *
  rcases hearly : r.replies b (.replicate n .step) with ⟨early, c⟩
  have hc : c.report = none := by
    have h := replies_step_report (r := r) (b := b) n
    rw [hearly] at h
    rw [h, ← hb]
    rfl
  obtain ⟨stepped, hstepped, hordinary⟩ :=
    repliesWith_steps_ordinary (r := r) (b := b) Act.logged n
  obtain ⟨ticked, tick, hrun, hticks⟩ := runWith_notes (r := r) Act.logged hc
  obtain ⟨k, x, report, hx, hsettled, hresult⟩ := run_settled (r := r) hc
  refine ⟨early, c, (r.run c).1, (r.run c).2, stepped.map Prod.snd, ticked.map Prod.snd, report,
    rfl, ?_, List.forall_mem_map.mpr hordinary, rfl, ?_, List.forall_mem_map.mpr hticks,
    ⟨k, x, hx, hresult⟩, hsettled.report, hsettled.replies_eq later, ?_⟩
  · have hlog := hstepped []
    rw [hearly, flatMap_logged] at hlog
    exact hlog
  · have hlog := hrun (stepped.map Prod.snd)
    rw [flatMap_logged, List.map_append, ← List.append_assoc] at hlog
    exact hlog
  · intro log
    rw [repliesLogged, hsettled.repliesWith_eq]
    rfl

/-- A bench whose trace fails on tick 1, and again on being closed. -/
def brokenRig : Rig Playback CallCount Coverage :=
  ⟨Playback.device, CallCount.sink (some 1) true, Coverage.sink, ⟨⟨0x10, 0x14⟩, 9, ⟨10, 0⟩⟩⟩

theorem teardown_once_after_failed_tick :
    brokenRig.start ⟨[], none, 0, 0⟩ {} (.empty 0 0xff 0) {} {} =
        .ok (.fresh ⟨[], none, 0, 0⟩ {} (.empty 0 0xff 0) {} {}) ∧
      ∃ c d before ticks report,
        brokenRig.replies (.fresh ⟨[], none, 0, 0⟩ {} (.empty 0 0xff 0) {} {}) [.step] =
          ([.stepped (.ok .continued)], c) ∧
        brokenRig.run c = (.error (.refused "disk full"), d) ∧ d.trace = ⟨2, 1⟩ ∧
        d.device.finalizations = 1 ∧
        (brokenRig.runLogged c).run before =
          (brokenRig.run c, before ++ ticks ++ [.close, .finalize, .write]) ∧
        brokenRig.replies d [.step, .run] = ([.stepped (.ok .done), .ran (.ok report)], d) := by
  have hstart : brokenRig.start ⟨[], none, 0, 0⟩ {} (.empty 0 0xff 0) {} {} =
    .ok (.fresh ⟨[], none, 0, 0⟩ {} (.empty 0 0xff 0) {} {}) := rfl
  obtain ⟨early, c, result, d, before, ticks, report, hearly, _, _, hrun, hlogged, _, _, _, hlater,
    _⟩ := teardown_once hstart 1 [.step, .run]
  obtain rfl := congrArg Prod.snd hearly
  obtain rfl := congrArg Prod.fst hrun
  obtain rfl := congrArg Prod.snd hrun
  exact ⟨hstart, _, _, before, ticks, report, rfl, rfl, rfl, rfl, hlogged, hlater⟩

end Rig

end BusBench

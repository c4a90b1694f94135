import BusBench.Proofs.ClockLevel

namespace BusBench

/-- What a bench does to the pins, the bus, the device and the sinks. -/
inductive Act where
  | drive
  | call (call : Call)
  | sample
  | measure
  | close
  | finalize
  | write
  deriving DecidableEq

/-- The acts of a teardown, in their order. -/
def Act.ofTeardown : List Act := [.close, .finalize, .write]

/-- Computations with a journal. -/
abbrev Journaled (ν : Type) := StateM (List ν)

/-- The computation gives this value, whatever its journal holds. -/
def Gives {ν α : Type} (x : Journaled ν α) (a : α) : Prop := ∀ journal, (x.run journal).1 = a

section

variable {ν α β : Type} (note : Nat → Act → List ν)

/-- The result of an act, of which the journal keeps what is to be noted. -/
def noted (tick : Nat) (act : Act) (result : α) : Journaled ν α :=
  fun journal => (result, journal ++ note tick act)

/-- The computation gives this value and notes these acts, each with its tick. -/
def Notes (x : Journaled ν α) (a : α) (acts : List (Nat × Act)) : Prop :=
  ∀ journal, x.run journal = (a, journal ++ acts.flatMap fun (tick, act) => note tick act)

/-- The computation gives this value, and notes no act of a teardown. -/
def Ordinary (x : Journaled ν α) (a : α) : Prop :=
  ∃ acts, Notes note x a acts ∧ ∀ e ∈ acts, e.2 ∉ Act.ofTeardown

variable {note} {x : Journaled ν α} {f : α → Journaled ν β} {a : α} {b : β}
  {acts more : List (Nat × Act)}

theorem Notes.pure (a : α) : Notes note (pure a) a [] := by
  intro journal
  rw [List.flatMap_nil, List.append_nil]
  rfl

theorem Notes.bind (hx : Notes note x a acts) (hf : Notes note (f a) b more) :
    Notes note (x >>= f) b (acts ++ more) := by
  intro journal
  rw [StateT.run_bind, hx journal, List.flatMap_append, ← List.append_assoc]
  exact hf _

theorem Notes.bind_pure (hx : Notes note x a acts) (g : α → β) :
    Notes note (x >>= fun a => Pure.pure (g a)) (g a) acts := by
  intro journal
  rw [StateT.run_bind, hx journal]
  rfl

theorem Notes.eq_pure (h : Notes note x a []) : x = Pure.pure a := by
  funext journal
  have hrun := h journal
  rw [List.flatMap_nil, List.append_nil] at hrun
  exact hrun

theorem notes_noted (note : Nat → Act → List ν) (tick : Nat) (act : Act) (result : α) :
    Notes note (noted note tick act result) result [(tick, act)] := by
  intro journal
  rw [List.flatMap_singleton]
  rfl

theorem Notes.gives (h : Notes note x a acts) : Gives x a := by
  intro journal
  rw [h journal]

theorem Gives.pure (a : α) : Gives (ν := ν) (pure a) a := fun _ => rfl

theorem Gives.bind (hx : Gives x a) (hf : Gives (f a) b) : Gives (x >>= f) b := by
  intro journal
  rw [← hf (x.run journal).2, ← hx journal]
  rfl

theorem Ordinary.pure (a : α) : Ordinary note (pure a) a := ⟨[], .pure a, nofun⟩

theorem Ordinary.bind (hx : Ordinary note x a) (hf : Ordinary note (f a) b) :
    Ordinary note (x >>= f) b := by
  obtain ⟨acts, hx, hacts⟩ := hx
  obtain ⟨more, hf, hmore⟩ := hf
  refine ⟨acts ++ more, hx.bind hf, fun e he => ?_⟩
  exact (List.mem_append.mp he).elim (hacts e) (hmore e)

end

/-- What is asked of a bench. -/
inductive Request where
  | step
  | run

/-- What a bench replies. -/
inductive Reply where
  | stepped (result : Except Fault Progress)
  | ran (result : Except Fault Report)

/-- The replies to requests made one after the other. -/
def converse {m : Type → Type} [Monad m] {β : Type} (step : β → m (Except Fault Progress × β))
    (run : β → m (Except Fault Report × β)) : List Request → β → m (List Reply × β)
  | [], b => return ([], b)
  | .step :: rest, b => do
    let (result, b) ← step b
    let (replies, b) ← converse step run rest b
    return (.stepped result :: replies, b)
  | .run :: rest, b => do
    let (result, b) ← run b
    let (replies, b) ← converse step run rest b
    return (.ran result :: replies, b)

namespace Rig

variable {σ τ κ ν : Type} (r : Rig σ τ κ) (note : Nat → Act → List ν)

section

variable (b : Bench σ τ κ)

def serveWith : Journaled ν (Bench σ τ κ) :=
  if r.settings.schedule.risesAt b.tick then do
    let b ← noted note b.tick (.call .respond) (r.call b .respond)
    noted note b.tick (.call .observe) (r.call b .observe)
  else return b

def clockTickWith : Journaled ν (Bench σ τ κ) := do
  let b ← noted note b.tick .drive (r.drive b)
  let b ← r.serveWith note b
  noted note b.tick (.call .evaluate) (r.call b .evaluate)

def recordWith : Journaled ν (Except Fault Progress × Bench σ τ κ) := do
  match ← noted note b.tick .sample (r.trace.sample b.tick b.bus.pins b.trace) with
  | (.error e, trace) => return (.error e, { b with trace })
  | (.ok (), trace) =>
    let coverage ← noted note b.tick .measure (r.coverage.sample b.tick b.bus.pins b.coverage)
    return (.ok .continued, { b with trace, coverage, tick := b.tick + 1 })

/-- A step that keeps a journal. -/
def stepWith : Journaled ν (Except Fault Progress × Bench σ τ κ) :=
  if b.phase = .halted ∨ (r.termination b).isSome then
    return (.ok .done, { b with phase := .halted })
  else do
    let b ← r.clockTickWith note b
    r.recordWith note b

def stepsWith : Nat → Bench σ τ κ → Journaled ν (Except Fault Unit × Bench σ τ κ)
  | 0, b => return (.ok (), b)
  | fuel + 1, b => do
    match ← r.stepWith note b with
    | (.ok .continued, b) => stepsWith fuel b
    | (.ok .done, b) => return (.ok (), b)
    | (.error e, b) => return (.error e, b)

def teardownWith : Journaled ν (Except Fault Report × Bench σ τ κ) := do
  let report := r.conclude b
  let (closed, trace) ← noted note b.tick .close (r.trace.close b.trace)
  let (device, pins) ← noted note b.tick .finalize (r.device.finalize b.device b.bus.pins)
  let (written, coverage) ← noted note b.tick .write (r.coverage.write b.coverage)
  return (closed >>= fun _ => written >>= fun _ => .ok report,
    { b with
      device
      bus.pins := pins
      phase := .halted
      trace
      coverage
      report := some report })

/-- A run that keeps a journal. -/
def runWith : Journaled ν (Except Fault Report × Bench σ τ κ) := do
  match b.report with
  | some report => return (.ok report, b)
  | none =>
    match ← r.stepsWith note (r.settings.timeout - b.tick + 1) b with
    | (.ok (), b) => r.teardownWith note b
    | (.error e, b) =>
      let (_, b) ← r.teardownWith note { b with phase := .halted }
      return (.error e, b)

/-- The replies of a bench. -/
def replies (requests : List Request) : List Reply × Bench σ τ κ :=
  Id.run (converse (fun b => pure (r.step b)) (fun b => pure (r.run b)) requests b)

/-- The replies of a bench that keeps a journal. -/
def repliesWith (requests : List Request) : Journaled ν (List Reply × Bench σ τ κ) :=
  converse (r.stepWith note) (r.runWith note) requests b

end

/-- What a tick does to the pins, the bus and the device, in this order. -/
def actsAt (tick : Nat) : List (Nat × Act) :=
  (tick, .drive) :: (if r.settings.schedule.risesAt tick then
    [(tick, .call .respond), (tick, .call .observe)] else []) ++ [(tick, .call .evaluate)]

/-- What a tick then shows to the sinks; no coverage is measured if the trace fails. -/
def shows (b : Bench σ τ κ) : List (Nat × Act) :=
  match (r.trace.sample b.tick b.bus.pins b.trace).1 with
  | .error _ => [(b.tick, .sample)]
  | .ok () => [(b.tick, .sample), (b.tick, .measure)]

variable {r} {b : Bench σ τ κ}

theorem replies_step (rest : List Request) :
    r.replies b (.step :: rest) = (.stepped (r.step b).1 :: (r.replies (r.step b).2 rest).1,
      (r.replies (r.step b).2 rest).2) := rfl

theorem replies_run (rest : List Request) :
    r.replies b (.run :: rest) = (.ran (r.run b).1 :: (r.replies (r.run b).2 rest).1,
      (r.replies (r.run b).2 rest).2) := rfl

theorem serveWith_notes : Notes note (r.serveWith note b) (r.serve b)
    (if r.settings.schedule.risesAt b.tick then
      [(b.tick, .call .respond), (b.tick, .call .observe)] else []) := by
  unfold serveWith
  by_cases h : r.settings.schedule.risesAt b.tick = true
  · rw [if_pos h, if_pos h, serve_of_rises h]
    have hresponded := notes_noted note b.tick (.call .respond) (r.call b .respond)
    exact hresponded.bind (notes_noted note b.tick (.call .observe) _)
  · rw [if_neg h, if_neg h, serve_of_flat h]
    exact .pure b

theorem clockTickWith_notes :
    Notes note (r.clockTickWith note b) (r.clockTick b) (r.actsAt b.tick) := by
  have hserved := serveWith_notes (r := r) (b := r.drive b) note
  have htick : (r.serve (r.drive b)).tick = b.tick := serve_tick
  have hevaluated := notes_noted note (r.serve (r.drive b)).tick (.call .evaluate)
    (r.evaluate (r.serve (r.drive b)))
  nth_rewrite 2 [htick] at hevaluated
  exact (notes_noted note b.tick .drive (r.drive b)).bind (hserved.bind hevaluated)

theorem recordWith_notes : Notes note (r.recordWith note b) (r.record b) (r.shows b) := by
  have hsampled := notes_noted note b.tick .sample
    (r.trace.sample b.tick b.bus.pins b.trace)
  unfold recordWith record shows
  rcases h : r.trace.sample b.tick b.bus.pins b.trace with ⟨e | ⟨⟩, trace⟩
  · rw [h] at hsampled
    exact hsampled.bind (.pure _)
  · rw [h] at hsampled
    exact hsampled.bind ((notes_noted note b.tick .measure _).bind_pure _)

theorem stepWith_of_stops (h : r.Stops b) : Notes note (r.stepWith note b) (r.step b) [] := by
  rw [step_of_stops h]
  unfold Stops at h
  rw [stepWith, if_pos h]
  exact .pure _

theorem stepWith_of_goes (h : ¬ r.Stops b) : Notes note (r.stepWith note b) (r.step b)
    (r.actsAt b.tick ++ r.shows (r.clockTick b)) := by
  rw [step_of_goes h]
  unfold Stops at h
  rw [stepWith, if_neg h]
  exact (clockTickWith_notes note).bind (recordWith_notes note)

theorem actsAt_ordinary (tick : Nat) : ∀ e ∈ r.actsAt tick, e.2 ∉ Act.ofTeardown := by
  unfold actsAt
  cases r.settings.schedule.risesAt tick <;> simp [Act.ofTeardown]

theorem shows_ordinary (b : Bench σ τ κ) : ∀ e ∈ r.shows b, e.2 ∉ Act.ofTeardown := by
  unfold shows
  split <;> simp [Act.ofTeardown]

theorem stepWith_ordinary : Ordinary note (r.stepWith note b) (r.step b) := by
  by_cases h : r.Stops b
  · exact ⟨[], stepWith_of_stops note h, nofun⟩
  · refine ⟨_, stepWith_of_goes note h, fun e he => ?_⟩
    exact (List.mem_append.mp he).elim (actsAt_ordinary _ e) (shows_ordinary _ e)

theorem stepsWith_ordinary (fuel : Nat) :
    Ordinary note (r.stepsWith note fuel b) (r.steps fuel b) := by
  induction fuel generalizing b with
  | zero => exact .pure _
  | succ fuel ih =>
    rw [stepsWith, steps]
    refine (stepWith_ordinary note).bind ?_
    rcases r.step b with ⟨e | _ | _, c⟩
    · exact .pure _
    · exact ih
    · exact .pure _

theorem teardownWith_notes : Notes note (r.teardownWith note b) (r.teardown b)
    (Act.ofTeardown.map (b.tick, ·)) := by
  refine (notes_noted note b.tick .close (r.trace.close b.trace)).bind ?_
  refine (notes_noted note b.tick .finalize (r.device.finalize b.device b.bus.pins)).bind ?_
  exact (notes_noted note b.tick .write (r.coverage.write b.coverage)).bind_pure _

theorem runWith_of_report {report : Report} (h : b.report = some report) :
    Notes note (r.runWith note b) (r.run b) [] := by
  rw [runWith, run, h]
  exact .pure _

/-- A first run notes what its ticks do, and then one teardown. -/
theorem runWith_notes (hb : b.report = none) : ∃ acts tick,
    Notes note (r.runWith note b) (r.run b) (acts ++ Act.ofTeardown.map (tick, ·)) ∧
      ∀ e ∈ acts, e.2 ∉ Act.ofTeardown := by
  obtain ⟨acts, hsteps, hacts⟩ :=
    stepsWith_ordinary (r := r) (b := b) note (r.settings.timeout - b.tick + 1)
  rw [runWith, run, hb]
  rcases hlast : r.steps (r.settings.timeout - b.tick + 1) b with ⟨e | ⟨⟩, c⟩
  all_goals rw [hlast] at hsteps
  · -- the fault of the tick is what the run gives, so that of the teardown is dropped
    exact ⟨acts, c.tick, hsteps.bind ((teardownWith_notes note).bind_pure _), hacts⟩
  · exact ⟨acts, c.tick, hsteps.bind (teardownWith_notes note), hacts⟩

/-- Once a bench is halted, a run does nothing more than tear it down. -/
theorem runWith_of_halted (h : b.phase = .halted) :
    ∃ acts, Notes note (r.runWith note b) (r.run b) acts ∧ ∀ e ∈ acts, e.2 ∈ Act.ofTeardown := by
  cases hb : b.report with
  | some report => exact ⟨[], runWith_of_report note hb, nofun⟩
  | none =>
    have hdone : Notes note (r.stepsWith note (r.settings.timeout - b.tick + 1) b)
        (.ok (), b.halt) [] := by
      have hstep := stepWith_of_stops (r := r) note (.inl h)
      rw [step_of_stops (.inl h)] at hstep
      exact hstep.bind (.pure _)
    refine ⟨Act.ofTeardown.map (b.tick, ·), ?_, by simp⟩
    rw [runWith, run, hb, steps, step_of_stops (.inl h)]
    exact hdone.bind (teardownWith_notes note)

theorem repliesWith_steps_ordinary (n : Nat) : Ordinary note
    (r.repliesWith note b (.replicate n .step)) (r.replies b (.replicate n .step)) := by
  induction n generalizing b with
  | zero => exact .pure _
  | succ n ih => exact (stepWith_ordinary note).bind (ih.bind (.pure _))

/-- Keeping a journal changes nothing. -/
theorem stepWith_gives : Gives (r.stepWith note b) (r.step b) := by
  obtain ⟨_, hstep, _⟩ := stepWith_ordinary (r := r) (b := b) note
  exact hstep.gives

theorem runWith_gives : Gives (r.runWith note b) (r.run b) := by
  cases hb : b.report with
  | some report => exact (runWith_of_report note hb).gives
  | none =>
    obtain ⟨_, _, hrun, _⟩ := runWith_notes (r := r) note hb
    exact hrun.gives

theorem repliesWith_gives (requests : List Request) :
    Gives (r.repliesWith note b requests) (r.replies b requests) := by
  induction requests generalizing b with
  | nil => exact .pure _
  | cons request rest ih =>
    cases request with
    | step => exact (stepWith_gives note).bind (ih.bind (.pure _))
    | run => exact (runWith_gives note).bind (ih.bind (.pure _))

end Rig

end BusBench

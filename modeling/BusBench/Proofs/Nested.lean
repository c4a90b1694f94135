import BusBench.RegressCommand

namespace BusBench

section

variable {ε δ α β : Type} {m : Type → Type} [Monad m]

/-- The same computation in surroundings that may fail on their own, which it never makes them. -/
def within (δ : Type) (x : ExceptT ε m α) : ExceptT ε (ExceptT δ m) α :=
  ExceptT.mk (ExceptT.lift x.run)

theorem within_eq {x : ExceptT ε m α} {y : ExceptT ε (ExceptT δ m) α}
    (h : Except.ok <$> x.run = y.run.run) : within δ x = y := h

variable [LawfulMonad m]

@[simp] theorem within_pure (a : α) : within δ (pure a : ExceptT ε m α) = pure a :=
  within_eq (by simp)

@[simp] theorem within_throw (e : ε) : within δ (throw e : ExceptT ε m α) = throw e :=
  within_eq (by simp)

@[simp] theorem within_bind (x : ExceptT ε m α) (f : α → ExceptT ε m β) :
    within δ (x >>= f) = within δ x >>= fun a => within δ (f a) := by
  refine within_eq ?_
  simp only [within, ExceptT.run_bind, ExceptT.run_mk, ExceptT.run_lift, map_bind,
    bind_map_left]
  congr 1
  funext r
  cases r <;> simp

@[simp] theorem within_map (f : α → β) (x : ExceptT ε m α) :
    within δ (f <$> x) = f <$> within δ x := by
  simp only [map_eq_pure_bind, within_bind, within_pure]

@[simp] theorem within_adapt {ε' : Type} (f : ε → ε') (x : ExceptT ε m α) :
    within δ (x.adapt f) = (within δ x).adapt f :=
  within_eq (by simp [within, ExceptT.run_adapt, Except.map])

/-- A computation of the surroundings is the same one in them. -/
@[simp] theorem within_lift (x : m α) :
    within δ (ExceptT.lift x : ExceptT ε m α) = ExceptT.lift (ExceptT.lift x) :=
  within_eq (by simp [Except.map])

end

section

variable {δ : Type} {m : Type → Type} [Monad m] [LawfulMonad m] [Workspace m]

@[simp] theorem within_read {ε : Type} (p : Path) :
    within δ (Workspace.read p : ExceptT ε m (Except Fault String)) = Workspace.read p :=
  within_lift _

@[simp] theorem within_write {ε : Type} (p : Path) (content : Content) :
    within δ (Workspace.write p content : ExceptT ε m (Except Fault Unit)) =
      Workspace.write p content :=
  within_lift _

@[simp] theorem within_makeFolders {ε : Type} (p : Path) :
    within δ (Workspace.makeFolders p : ExceptT ε m (Except Fault Unit)) =
      Workspace.makeFolders p :=
  within_lift _

omit [Workspace m] in
@[simp] theorem within_attempt {ε α : Type} (wrap : ε → CommandError) (r : Except ε α) :
    within δ (attempt wrap r : CommandM m α) = attempt wrap r := by
  cases r with
  | ok a => exact within_pure a
  | error e => exact within_throw (wrap e)

@[simp] theorem within_readLabels (t : TestEntry) :
    within δ (readLabels t : CommandM m Labels) = readLabels t := by
  unfold readLabels
  cases t.disassembly <;> simp

@[simp] theorem within_testConfig (c : Config) (index : Nat) (t : TestEntry) :
    within δ (testConfig c index t : CommandM m Config) = testConfig c index t := by
  simp [testConfig]

@[simp] theorem within_buildMemory (c : Config) :
    within δ (buildMemory c : CommandM m (Memory × Nat)) = buildMemory c := by
  unfold buildMemory
  cases c.memory.image <;> simp

@[simp] theorem within_ensureFolder (p : Path) :
    within δ (ensureFolder p : CommandM m Unit) = ensureFolder p := by
  unfold ensureFolder
  cases p.parent? with
  | none => simp
  | some folder => by_cases h : folder.isEmpty <;> simp [h]

@[simp] theorem within_ensureFolders (o : Outputs) :
    within δ (ensureFolders o : CommandM m Unit) = ensureFolders o := by
  unfold ensureFolders
  cases o.trace <;> cases o.coverage <;> simp

@[simp] theorem within_save (p : Path) (content : Content) :
    within δ (save p content : ExceptT SimulationError m Unit) = save p content := by
  simp only [save, within_bind, within_write]
  congr 1
  funext r
  cases r <;> simp

@[simp] theorem within_saveOutputs {σ : Type} (outputs : Outputs)
    (bench : Bench σ (Option Vcd) (Option Coverage)) :
    within δ (saveOutputs outputs bench : ExceptT SimulationError m Unit) =
      saveOutputs outputs bench := by
  unfold saveOutputs
  cases outputs.trace <;> cases bench.trace <;> cases outputs.coverage <;> cases bench.coverage <;>
    simp

@[simp] theorem within_simulate {σ : Type} (device : Device σ) (start : σ) (pins : Pins)
    (memory : Memory) (settings : Settings) (outputs : Outputs) :
    within δ (simulate device start pins memory settings outputs :
      ExceptT SimulationError m Report) =
      simulate device start pins memory settings outputs := by
  unfold simulate
  cases hstart : (recordingRig device settings).start start pins memory outputs.startTrace
    outputs.startCoverage with
  | error e => simp [hstart]
  | ok bench =>
    rcases hrun : (recordingRig device settings).run bench with ⟨result, final⟩
    cases outputs.trace <;> cases result <;> simp [hstart, hrun]

@[simp] theorem within_playScript (script : List BusOp) (memory : Memory) (settings : Settings)
    (outputs : Outputs) :
    within δ (playScript script memory settings outputs : CommandM m Report) =
      playScript script memory settings outputs := by
  simp [playScript]

/-- A test is run in the same way wherever it is run. -/
theorem within_runTest (c : Config) (waves : Bool) (index : Nat) (t : TestEntry) :
    within δ (runTest c waves index t : CommandM m (Sentinels × Report)) =
      runTest c waves index t := by
  simp [runTest]

end

/-- The row of a test of this name that ended so. -/
def TestResult.ofEnd (name : String) : Except CommandError (Sentinels × Report) → TestResult
  | .ok (known, report) => .ofReport name known report
  | .error e => .ofError name e

/-- A row is made of the way its test ends, and whatever the test did to the files stays. -/
theorem testRow_run (c : Config) (waves : Bool) (index : Nat) (t : TestEntry) (s : Scene) :
    (testRow c waves index t : CommandM (StateM Scene) TestResult).run.run s =
      Prod.map (fun r => .ok (.ofEnd t.displayName r)) id
        ((runTest c waves index t : CommandM (StateM Scene) (Sentinels × Report)).run.run s) := by
  unfold testRow
  rw [← within_runTest]
  rcases hrun : (runTest c waves index t : CommandM (StateM Scene) (Sentinels × Report)).run.run s
    with ⟨r, u⟩
  have hlift : ((within CommandError
      (runTest c waves index t : CommandM (StateM Scene) (Sentinels × Report)) :
      CommandM (CommandM (StateM Scene)) (Sentinels × Report)).run).run.run s = (.ok r, u) :=
    congrArg (Prod.map Except.ok id) hrun
  -- the surroundings never fail, so the row is made in either case
  rw [ExceptT.run_bind, StateT.run_bind, hlift]
  rcases r with e | ⟨known, report⟩ <;> rfl

end BusBench

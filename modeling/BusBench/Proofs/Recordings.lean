import BusBench.Proofs.Scenes
import BusBench.Proofs.Ticks
import BusBench.Proofs.VcdLines

namespace BusBench

namespace Vcd

theorem start_unlimited {v : Vcd} (h : v.medium.limit = none) :
    ∃ w, v.start = (.ok (), w) ∧ w.medium.limit = none := by
  unfold start
  split
  · exact ⟨v, rfl, h⟩
  · rw [Medium.putAll_unlimited h]
    exact ⟨_, rfl, h⟩

theorem record_unlimited {v : Vcd} (h : v.medium.limit = none) (tick : Nat) (p : Pins) :
    ∃ w, record tick p v = (.ok (), w) ∧ w.medium.limit = none := by
  obtain ⟨w, hstart, hw⟩ := start_unlimited h
  simp only [record, hstart, Medium.putAll_unlimited hw]
  exact ⟨_, rfl, hw⟩

end Vcd

section

variable {σ : Type} {memory : Memory} {settings : Settings}

/-- Recordings that stay in memory never fail. -/
theorem recordingRig_quiet (device : Device σ) (settings : Settings) :
    (recordingRig device settings).Quiet fun trace => ∀ v ∈ trace, v.medium.limit = none where
  sample tick p trace h := by
    cases trace with
    | none =>
      have hsample : (recordingRig device settings).trace.sample tick p none = (.ok (), none) := rfl
      rw [hsample]
      exact ⟨rfl, fun _ hmem => absurd hmem (Option.not_mem_none _)⟩
    | some v =>
      obtain ⟨w, hrecord, hw⟩ := Vcd.record_unlimited (h v rfl) tick p
      have hsample : (recordingRig device settings).trace.sample tick p (some v) =
          (.ok (), some w) := by
        change (Vcd.record tick p v).map id some = _
        rw [hrecord]
        rfl
      rw [hsample]
      exact ⟨rfl, fun _ hmem => Option.some.inj hmem ▸ hw⟩
  close trace h := by
    cases trace with
    | none => rfl
    | some v =>
      obtain ⟨w, hstart, _⟩ := Vcd.start_unlimited (h v rfl)
      change ((Vcd.start v).map id some).1 = _
      rw [hstart]
      rfl
  write coverage := by cases coverage <;> rfl

/-- Settings that make sense are enough for a run that reports. -/
theorem recordingRig_reports (device : Device σ) (start : σ) (pins : Pins)
    (outputs : Outputs) (hset : settings.check = .ok ()) (hmem : memory.lo ≤ memory.hi) :
    ∃ b report final, (recordingRig device settings).start start pins memory outputs.startTrace
        outputs.startCoverage = .ok b ∧
      (recordingRig device settings).run b = (.ok report, final) := by
  obtain ⟨n, c, _, _, hrun⟩ := Rig.run_quiet (recordingRig_quiet device settings)
    (b := .fresh start pins memory outputs.startTrace outputs.startCoverage) (by
      intro v hv
      obtain ⟨target, _, rfl⟩ := Option.map_eq_some_iff.mp hv
      rfl) rfl
  exact ⟨_, _, _, Rig.start_eq_ok_iff.mpr ⟨hset, hmem, rfl⟩, hrun⟩

end

/-- Where a run leaves files. -/
def Outputs.paths (o : Outputs) : List Path := (o.trace.map (·.path)).toList ++ o.coverage.toList

theorem Outputs.mem_paths_of_trace {o : Outputs} {target : TraceTarget}
    (h : o.trace = some target) : target.path ∈ o.paths := by
  simp [Outputs.paths, h]

theorem Outputs.mem_paths_of_coverage {o : Outputs} {path : Path} (h : o.coverage = some path) :
    path ∈ o.paths := by
  simp [Outputs.paths, h]

/-- A folder that a run needs cannot be made, or a file of it cannot be written. -/
inductive Outputs.Fails (o : Outputs) (files : FileTree) : CommandError → Prop
  | folder {p folder : Path} {fault : Fault} : p ∈ o.paths → p.parent? = some folder →
      files.makeFolders folder.length folder = .error fault → Fails o files (.folder fault)
  | file {p : Path} {content : Content} {fault : Fault} : p ∈ o.paths →
      files.write p content = .error fault → Fails o files (.simulation (.sink fault))

theorem Outputs.Fails.paths_ne_nil {o : Outputs} {files : FileTree} {e : CommandError}
    (h : o.Fails files e) : o.paths ≠ [] := by
  cases h with
  | folder hp => exact List.ne_nil_of_mem hp
  | file hp => exact List.ne_nil_of_mem hp

section

variable {outputs : Outputs}

theorem change_cases (f : FileTree → Except Fault FileTree) (s : Scene) :
    (∃ t, Scene.change f s = (.ok (), t)) ∨
      ∃ fault, Scene.change f s = (.error fault, s) ∧ f s.files = .error fault := by
  unfold Scene.change
  cases f s.files with
  | ok files => exact .inl ⟨_, rfl⟩
  | error fault => exact .inr ⟨fault, rfl, rfl⟩

theorem save_meets {p : Path} (hp : p ∈ outputs.paths) (content : Content) :
    Meets (save p content) (fun _ => True) fun e s => outputs.Fails s.files (.simulation e) := by
  intro s
  have hwrite : (Workspace.write p content :
      ExceptT SimulationError (StateM Scene) (Except Fault Unit)).run.run s =
      (.ok (Scene.change (·.write p content) s).1, (Scene.change (·.write p content) s).2) := rfl
  rw [save, run_bind_of_ok hwrite]
  rcases change_cases (·.write p content) s with ⟨t, h⟩ | ⟨fault, h, hfault⟩
  · rw [h]
    exact .inl ⟨(), t, rfl, trivial⟩
  · rw [h]
    exact .inr ⟨_, s, rfl, .file hp hfault⟩

theorem ensureFolder_meets {p : Path} (hp : p ∈ outputs.paths) :
    Meets (ensureFolder p) (fun _ => True) fun e s => outputs.Fails s.files e := by
  unfold ensureFolder
  split
  next => exact .pure trivial
  next folder hfolder =>
    split
    next => exact .pure trivial
    next =>
      intro s
      have hmake : (Workspace.makeFolders folder :
          CommandM (StateM Scene) (Except Fault Unit)).run.run s =
          (.ok (Scene.change (·.makeFolders folder.length folder) s).1,
            (Scene.change (·.makeFolders folder.length folder) s).2) := rfl
      rw [run_bind_of_ok hmake]
      rcases change_cases (·.makeFolders folder.length folder) s with ⟨t, h⟩ | ⟨fault, h, hfault⟩
      · rw [h]
        exact .inl ⟨(), t, rfl, trivial⟩
      · rw [h]
        exact .inr ⟨_, s, rfl, .folder hp hfolder hfault⟩

/-- What chains keep holds of all folders being made, if it does of each. -/
theorem ensureFolders_induction {P : CommandM (StateM Scene) Unit → Prop} (hpure : P (pure ()))
    (hbind : ∀ x y, P x → P y → P (x >>= fun _ => y))
    (hfolder : ∀ p ∈ outputs.paths, P (ensureFolder p)) : P (ensureFolders outputs) := by
  unfold ensureFolders
  rcases htrace : outputs.trace with _ | target <;>
    rcases hcoverage : outputs.coverage with _ | path
  · exact hpure
  · exact hfolder _ (Outputs.mem_paths_of_coverage hcoverage)
  · exact hbind _ _ (hfolder _ (Outputs.mem_paths_of_trace htrace)) hpure
  · exact hbind _ _ (hfolder _ (Outputs.mem_paths_of_trace htrace))
      (hfolder _ (Outputs.mem_paths_of_coverage hcoverage))

/-- What chains keep holds of all outputs being written, if it does of each. -/
theorem saveOutputs_induction {σ : Type} {P : ExceptT SimulationError (StateM Scene) Unit → Prop}
    (hpure : P (pure ())) (hbind : ∀ x y, P x → P y → P (x >>= fun _ => y))
    (hsave : ∀ p ∈ outputs.paths, ∀ content, P (save p content))
    (bench : Bench σ (Option Vcd) (Option Coverage)) : P (saveOutputs outputs bench) := by
  unfold saveOutputs
  split
  next path _ hcoverage _ =>
    have hlast := hsave path (Outputs.mem_paths_of_coverage hcoverage)
    split
    next target _ htrace _ =>
      exact hbind _ _ (hsave _ (Outputs.mem_paths_of_trace htrace) _) (hlast _)
    next => exact hlast _
  next =>
    split
    next target _ htrace _ =>
      exact hbind _ _ (hsave _ (Outputs.mem_paths_of_trace htrace) _) hpure
    next => exact hpure

theorem ensureFolders_meets (outputs : Outputs) :
    Meets (ensureFolders outputs) (fun _ => True) fun e s => outputs.Fails s.files e :=
  ensureFolders_induction (P := fun x => Meets x (fun _ => True) _) (.pure trivial)
    (fun _ _ hx hy => hx.bind fun _ _ => hy) fun _ hp => ensureFolder_meets hp

theorem saveOutputs_meets {σ : Type} (outputs : Outputs)
    (bench : Bench σ (Option Vcd) (Option Coverage)) :
    Meets (saveOutputs outputs bench) (fun _ => True)
      fun e s => outputs.Fails s.files (.simulation e) :=
  saveOutputs_induction (P := fun x => Meets x (fun _ => True) _) (.pure trivial)
    (fun _ _ hx hy => hx.bind fun _ _ => hy) (fun _ hp content => save_meets hp content) bench

/-- A simulation with sensible settings reports, unless a file of it cannot be written. -/
theorem simulate_meets {σ : Type} {device : Device σ} {start : σ} {pins : Pins} {memory : Memory}
    {settings : Settings} (outputs : Outputs) (hset : settings.check = .ok ())
    (hmem : memory.lo ≤ memory.hi) :
    Meets (simulate device start pins memory settings outputs) (fun _ => True)
      fun e s => outputs.Fails s.files (.simulation e) := by
  obtain ⟨b, report, final, hstart, hrun⟩ :=
    recordingRig_reports device start pins outputs hset hmem
  have hrest : Meets (do saveOutputs outputs final; pure report) (fun _ => True)
      fun e s => outputs.Fails s.files (.simulation e) :=
    (saveOutputs_meets outputs final).bind fun _ _ => .pure trivial
  -- the run itself is done here: what is left are the files before and after it
  simp only [simulate, hstart, hrun]
  cases h : outputs.trace with
  | none => exact hrest
  | some target =>
    exact (save_meets (Outputs.mem_paths_of_trace h) _).bind fun _ _ => hrest

theorem playScript_meets {memory : Memory} {settings : Settings} (script : List BusOp)
    (outputs : Outputs) (hset : settings.check = .ok ()) (hmem : memory.lo ≤ memory.hi) :
    Meets (playScript script memory settings outputs) (fun _ => True)
      fun e s => outputs.Fails s.files e := by
  intro s
  have hplay : Meets (simulate Master.device { ops := script, sentinels := settings.sentinels } {}
    memory settings outputs) (fun _ => True) fun e s => outputs.Fails s.files (.simulation e) :=
    simulate_meets outputs hset hmem
  rcases hplay s with ⟨report, t, h, _⟩ | ⟨e, t, h, he⟩
  · refine .inl ⟨report, t, ?_, trivial⟩
    rw [playScript, ExceptT.run_adapt, StateT.run_map, h]
    rfl
  · refine .inr ⟨.simulation e, t, ?_, he⟩
    rw [playScript, ExceptT.run_adapt, StateT.run_map, h]
    rfl

end

end BusBench

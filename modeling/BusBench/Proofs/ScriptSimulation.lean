import BusBench.Proofs.ScriptRuns
import BusBench.Simulation

namespace BusBench

section

variable {S ε α β : Type}

/-- A computation in surroundings that may fail gives a value only if its parts do. -/
theorem run_bind_ok {x : ExceptT ε (StateM S) α} {f : α → ExceptT ε (StateM S) β} {s t : S} {b : β}
    (h : (x >>= f).run.run s = (.ok b, t)) :
    ∃ a u, x.run.run s = (.ok a, u) ∧ (f a).run.run u = (.ok b, t) := by
  rw [ExceptT.run_bind, StateT.run_bind] at h
  rcases hx : x.run.run s with ⟨res, u⟩
  cases res with
  | error e =>
    rw [hx] at h
    cases h
  | ok a =>
    rw [hx] at h
    exact ⟨a, u, rfl, h⟩

/-- Whatever it leaves in files, a simulation answers with the report of a run. -/
theorem simulate_ok {σ : Type} [Workspace (StateM S)] {device : Device σ} {start : σ} {pins : Pins}
    {memory : Memory} {settings : Settings} {outputs : Outputs} {s t : S} {report : Report}
    (h : (simulate device start pins memory settings outputs :
      ExceptT SimulationError (StateM S) Report).run.run s = (.ok report, t)) :
    ∃ b final, (recordingRig device settings).start start pins memory outputs.startTrace
        outputs.startCoverage = .ok b ∧
      (recordingRig device settings).run b = (.ok report, final) := by
  unfold simulate at h
  rcases hb : (recordingRig device settings).start start pins memory outputs.startTrace
      outputs.startCoverage with e | b
  · simp only [hb] at h
    cases h
  · simp only [hb] at h
    rcases hrun : (recordingRig device settings).run b with ⟨res, final⟩
    simp only [hrun] at h
    refine ⟨b, final, rfl, ?_⟩
    -- both ways on save the outputs and then hand out the answer of the run
    split at h
    next target _ =>
      obtain ⟨_, u, _, hu⟩ := run_bind_ok h
      obtain ⟨_, v, _, hv⟩ := run_bind_ok hu
      cases res with
      | error e => cases hv
      | ok rep => cases hv; exact hrun
    next =>
      obtain ⟨_, v, _, hv⟩ := run_bind_ok h
      cases res with
      | error e => cases hv
      | ok rep => cases hv; exact hrun

/-- A simulated script that does not run out of time ends as if its ops were played one after the
other on the memory, with the memory, the reads and the writes that this leaves. -/
theorem simulate_refines_play [Workspace (StateM S)] {ops : List BusOp} {memory : Memory}
    {settings : Settings} {outputs : Outputs} {s t : S} {report : Report}
    (h : (simulate Master.device { ops, sentinels := settings.sentinels } {} memory settings outputs :
      ExceptT SimulationError (StateM S) Report).run.run s = (.ok report, t))
    (htime : report.outcome ≠ .fail .timeout) :
    ∃ b final ending, (recordingRig Master.device settings).start
          { ops, sentinels := settings.sentinels } {} memory outputs.startTrace
          outputs.startCoverage = .ok b ∧
        (recordingRig Master.device settings).run b = (.ok report, final) ∧
        BusOp.play settings.sentinels 0 memory 0 0 ops =
          ⟨ending, final.bus.memory, report.bus.reads, report.bus.writes⟩ ∧
        report.outcome = ending.outcome := by
  obtain ⟨b, final, hstart, hrun⟩ := simulate_ok h
  obtain ⟨hset, _, rfl⟩ := Rig.start_eq_ok_iff.mp hstart
  have hpoised := Rig.poised_fresh (r := recordingRig Master.device settings) rfl ops memory
    outputs.startTrace outputs.startCoverage
  generalize hf : BusOp.play settings.sentinels 0 memory 0 0 ops = f
  obtain ⟨hends, hover⟩ := hpoised.reports hset rfl hrun hf
  refine ⟨_, final, f.ending, hstart, hrun, ?_⟩
  rcases Nat.lt_or_ge settings.timeout (f.ending.ticks settings.schedule ops) with hlt | hle
  · exact absurd (hover hlt).2 htime
  · obtain ⟨_, houtcome, hmemory, hreads, hwrites⟩ := hends hle
    rw [hmemory, hreads, hwrites]
    exact ⟨rfl, houtcome⟩

theorem simulate_refines_play_of_store :
    ∃ report t, (simulate Master.device
          { ops := Rig.storeAndLoad, sentinels := Rig.evenRig.settings.sentinels } {}
          (.empty 0 0xff 0) Rig.evenRig.settings {} :
        ExceptT SimulationError (StateM Scene) Report).run.run {} = (.ok report, t) ∧
      report.outcome ≠ .fail .timeout ∧ report.outcome = .pass ∧ report.bus.reads = 2 ∧
      report.bus.writes = 1 ∧ ∃ b final,
        (recordingRig Master.device Rig.evenRig.settings).run b = (.ok report, final) ∧
        final.bus.memory.read 0x20 = 0xcafe := by
  have hrun : ∃ report t, (simulate Master.device
        { ops := Rig.storeAndLoad, sentinels := Rig.evenRig.settings.sentinels } {}
        (.empty 0 0xff 0) Rig.evenRig.settings {} :
      ExceptT SimulationError (StateM Scene) Report).run.run {} = (.ok report, t) ∧
    report.outcome ≠ .fail .timeout := ⟨_, _, rfl, by decide⟩
  obtain ⟨report, t, h, htime⟩ := hrun
  obtain ⟨b, final, ending, _, hb, hplay, houtcome⟩ := simulate_refines_play h htime
  have hending : ending = .completed := congrArg Finale.ending hplay.symm
  have hread : (Finale.memory ⟨ending, final.bus.memory, report.bus.reads, report.bus.writes⟩).read
    0x20 = 0xcafe := by
    rw [← hplay]
    decide
  exact ⟨report, t, h, htime, by rw [houtcome, hending]; rfl, congrArg Finale.reads hplay.symm,
    congrArg Finale.writes hplay.symm, b, final, hb, hread⟩

end

end BusBench

import BusBench.Proofs.CheckSoundness
import BusBench.Proofs.Nested
import BusBench.Proofs.SentinelPrecedence
import BusBench.Proofs.TableLines
import Mathlib.Data.List.Forall2

namespace BusBench

/-- The two lines above the rows of a table. -/
def tableHead : List String :=
  ["RESULT | PASS       | FAIL       | TICKS    | TEST",
   "-------|------------|------------|----------|--------------------"]

/-- A table with these rows, of which nothing is printed if there are none. -/
def printed (rows : List String) : String := if rows = [] then "" else written (tableHead ++ rows)

/-- How an end of a run is put into words. -/
inductive Outcome.Told : Outcome → String → Prop
  | pass : Told .pass "pass"
  | sentinel : Told (.fail .sentinel) "fail (fail sentinel read)"
  | timeout : Told (.fail .timeout) "fail (timeout)"
  | noVerdict : Told (.fail .noVerdict) "fail (no verdict reached)"

theorem Outcome.told_message (o : Outcome) : o.Told o.message := by
  rcases o with _ | _ | _ | _
  · exact .pass
  · exact .sentinel
  · exact .timeout
  · exact .noVerdict

/-- What a run prints of its report: how it ended, its ticks, what happened on the bus, and in the
end whether it passed. -/
def Report.Shown (r : Report) (text : String) : Prop :=
  ∃ message, r.outcome.Told message ∧
    text = written (("outcome:    " ++ message) :: ("ticks:      " ++ toString r.ticks) ::
      r.lines.drop 2 ++ [if r.outcome = .pass then "TEST PASS" else "TEST FAIL"])

theorem Report.shown_lines (r : Report) :
    r.Shown (written (r.lines ++ [verdictLine r.outcome])) := by
  refine ⟨_, r.outcome.told_message, ?_⟩
  have hverdict : verdictLine r.outcome =
      if r.outcome = .pass then "TEST PASS" else "TEST FAIL" := by
    cases r.outcome <;> rfl
  rw [hverdict]
  rfl

theorem Outcome.exitCode_eq (o : Outcome) : o.exitCode = if o = .pass then 0 else 1 := by
  cases o <;> rfl

/-- What a run does with a configuration that is loaded and asks for no outputs. -/
def Config.play (c : Config) : CommandM (StateM Scene) (Sentinels × Report) := do
  attempt .config c.check
  let (memory, _) ← buildMemory c
  let settings ← attempt .config c.settings
  let report ← playScript c.script memory settings {}
  return (settings.sentinels, report)

/-- What the configuration of one entry gives when it runs by itself. -/
def Config.alone (c : Config) (files : FileTree) (index : Nat) (t : TestEntry) :
    Except CommandError (Sentinels × Report) :=
  answer (testConfig c index t) files >>= fun c => answer c.play files

/-- The line that tells how a test of this name ended. -/
inductive TableLine.Tells (name : String) :
    Except CommandError (Sentinels × Report) → TableLine → Prop
  | pass {known : Sentinels} {report : Report} : report.outcome = .pass →
      Tells name (.ok (known, report))
        ⟨"PASS", some known.pass, some known.fail, some report.ticks, name⟩
  | fail {known : Sentinels} {report : Report} {reason : FailReason} {message : String} :
      report.outcome = .fail reason → Outcome.Told (.fail reason) message →
      Tells name (.ok (known, report))
        ⟨"FAIL", some known.pass, some known.fail, some report.ticks, name ++ ": " ++ message⟩
  | error (e : CommandError) :
      Tells name (.error e) ⟨"ERROR", none, none, none, name ++ ": " ++ e.message⟩

theorem TableLine.Tells.of_pass {name : String} {known : Sentinels} {report : Report}
    {line : TableLine} (h : Tells name (.ok (known, report)) line)
    (hpass : report.outcome = .pass) :
    line = ⟨"PASS", some known.pass, some known.fail, some report.ticks, name⟩ := by
  cases h with
  | pass _ => rfl
  | fail hfail _ =>
    rw [hpass] at hfail
    cases hfail

theorem TableLine.Tells.of_error {name : String} {e : CommandError} {line : TableLine}
    (h : Tells name (.error e) line) :
    line = ⟨"ERROR", none, none, none, name ++ ": " ++ e.message⟩ := by
  cases h
  rfl

/-- How many lines have this result. -/
def TableLine.count (result : String) (lines : List TableLine) : Nat :=
  lines.countP (·.result = result)

/-- The line below a table. -/
def TableLine.summary (lines : List TableLine) : String :=
  "   Result: " ++ toString (count "PASS" lines) ++ " passed, " ++ toString (count "FAIL" lines) ++
    " failed, " ++ toString (count "ERROR" lines) ++ " errored out of " ++
    toString lines.length ++ " test(s)"

section

variable {c : Config} {files : FileTree} {t : TestEntry} {index : Nat}

theorem ok_bind {ε α β : Type} (a : α) (f : α → Except ε β) : (Except.ok a >>= f) = f a := rfl

theorem playScript_quiet (script : List BusOp) (memory : Memory) (settings : Settings) :
    ∃ r, ∀ s, (playScript script memory settings {} : CommandM (StateM Scene) Report).run.run s =
      (r, s) := by
  have hquiet : ∃ r, ∀ s, (simulate Master.device { ops := script, sentinels := settings.sentinels }
      {} memory settings {} : ExceptT SimulationError (StateM Scene) Report).run.run s =
        (r, s) := by
    rcases hstart : (recordingRig Master.device settings).start
      { ops := script, sentinels := settings.sentinels } {} memory ({} : Outputs).startTrace
      ({} : Outputs).startCoverage with e | bench
    · simp only [simulate, hstart]
      exact ⟨_, fun _ => rfl⟩
    · rcases hrun : (recordingRig Master.device settings).run bench with ⟨result, final⟩
      simp only [simulate, hstart, hrun]
      cases result <;> exact ⟨_, fun _ => rfl⟩
  obtain ⟨r, hr⟩ := hquiet
  refine ⟨r.mapError .simulation, fun s => ?_⟩
  rw [playScript, ExceptT.run_adapt, StateT.run_map, hr]
  rfl

theorem looks_playScript (script : List BusOp) (memory : Memory) (settings : Settings) :
    Looks (playScript script memory settings {} : CommandM (StateM Scene) Report) := by
  obtain ⟨r, hr⟩ := playScript_quiet script memory settings
  intro s
  rw [answer, hr, hr]

theorem looks_play (c : Config) : Looks c.play :=
  (looks_attempt _ _).bind fun _ => (looks_buildMemory c).bind fun _ =>
    (looks_attempt _ _).bind fun _ => (looks_playScript _ _ _).bind fun _ => .pure _

/-- Nothing but its image ties a configuration to the files. -/
theorem play_congr {files' : FileTree}
    (h : answer (buildMemory c) files' = answer (buildMemory c) files) :
    answer c.play files' = answer c.play files := by
  -- the steps agree one by one: only the image reads a file, and `h` is about that
  unfold Config.play
  simp only [(looks_attempt _ _).answer_bind, (looks_buildMemory c).answer_bind, answer_attempt, h]
  congr 1
  funext _
  congr 1
  funext ⟨memory, _⟩
  congr 1
  funext settings
  obtain ⟨r, hr⟩ := playScript_quiet c.script memory settings
  simp only [(looks_playScript _ _ _).answer_bind]
  simp only [answer, hr]
  rfl

/-- A configuration that was accepted plays, once its image is loaded. -/
theorem play_ok {memory : Memory} {words : Nat} (h : c.check = .ok ())
    (hpass : c.run.passAddr.isSome) (hfail : c.run.failAddr.isSome)
    (himage : answer (buildMemory c) files = .ok (memory, words)) :
    ∃ known report, answer c.play files = .ok (known, report) := by
  obtain ⟨settings, hready⟩ := Config.ready h hpass hfail himage
  obtain ⟨hset, hrange⟩ := hready.settings_check
  have hplay : ∃ report, answer (playScript c.script memory settings {} :
      CommandM (StateM Scene) Report) files = .ok report := by
    rcases playScript_meets c.script {} hset hrange { files } with
      ⟨report, t, hrun, _⟩ | ⟨e, t, _, hfails⟩
    · exact ⟨report, by rw [answer, hrun]⟩
    · exact absurd rfl hfails.paths_ne_nil
  obtain ⟨report, hreport⟩ := hplay
  refine ⟨settings.sentinels, report, ?_⟩
  unfold Config.play
  refine (looks_attempt _ _).answer_bind_ok.mpr ⟨(), answer_attempt_ok.mpr h, ?_⟩
  refine (looks_buildMemory c).answer_bind_ok.mpr ⟨_, himage, ?_⟩
  refine (looks_attempt _ _).answer_bind_ok.mpr ⟨_, answer_attempt_ok.mpr hready.complete, ?_⟩
  exact (looks_playScript _ _ _).answer_bind_ok.mpr ⟨_, hreport, rfl⟩

theorem runTest_run (hc : c.outputs = {}) (waves : Bool) (s : Scene) :
    (runTest c waves index t : CommandM (StateM Scene) (Sentinels × Report)).run.run s =
      (c.alone s.files index t, s) := by
  unfold runTest Config.alone
  rw [(looks_testConfig c index t).run_bind]
  rcases h : answer (testConfig c index t) s.files with e | c'
  · rfl
  · obtain ⟨hcheck, _, _, houtputs⟩ := testConfig_check h
    have hquiet : c'.outputs.forTest t.displayName waves = {} := by
      rw [houtputs, hc]
      cases waves <;> rfl
    -- what `Config.play` checks first was checked when the entry was put on top of the others
    have hattempt : (attempt .config c'.check : CommandM (StateM Scene) Unit) = pure () := by
      rw [hcheck]
      rfl
    have hfolders : (ensureFolders {} : CommandM (StateM Scene) Unit) = pure () := rfl
    change _ = (answer c'.play s.files, s)
    rw [← looks_play c' s, Config.play, hattempt, pure_bind]
    simp only [hquiet, hfolders, pure_bind]

/-- The row of an entry at its place. -/
def Config.row (c : Config) (files : FileTree) (x : TestEntry × Nat) : TestResult :=
  .ofEnd x.1.displayName (c.alone files x.2 x.1)

theorem row_tells (c : Config) (files : FileTree) (x : TestEntry × Nat) :
    (c.row files x).told.Tells x.1.displayName (c.alone files x.2 x.1) := by
  unfold Config.row
  rcases c.alone files x.2 x.1 with e | ⟨known, report⟩
  · have htold : (TestResult.ofError x.1.displayName e).told =
        ⟨"ERROR", none, none, none, x.1.displayName ++ ": " ++ e.message⟩ := by
      rw [String.append_assoc]
      rfl
    rw [TestResult.ofEnd, htold]
    exact .error e
  · have hmessage := report.outcome.told_message
    rw [TestResult.ofEnd, TestResult.ofReport]
    cases h : report.outcome with
    | pass =>
      have htold : (TestResult.mk x.1.displayName .pass (some known)
            (some report.ticks) none).told =
          ⟨"PASS", some known.pass, some known.fail, some report.ticks, x.1.displayName⟩ := by
        simp only [TestResult.told, Option.elim_none, String.append_empty]
        rfl
      rw [if_pos (show Outcome.pass.passed = true from rfl), htold]
      exact .pass h
    | fail reason =>
      have htold (detail : String) : (TestResult.mk x.1.displayName .fail (some known)
            (some report.ticks) (some detail)).told =
          ⟨"FAIL", some known.pass, some known.fail, some report.ticks,
            x.1.displayName ++ ": " ++ detail⟩ := by
        rw [String.append_assoc]
        rfl
      rw [h] at hmessage
      rw [if_neg (by simp [Outcome.passed]), htold]
      exact .fail h hmessage

theorem testRows_run (hc : c.outputs = {}) (waves : Bool) (xs : List (TestEntry × Nat))
    (s : Scene) :
    (testRows c waves xs : CommandM (StateM Scene) (List TestResult)).run.run s =
      (.ok (xs.map (c.row s.files)),
        { s with out := s.out ++ written ((xs.map (c.row s.files)).map TestResult.row) }) := by
  -- a row leaves the files, so the next one is about the same ones with a line more printed
  induction xs generalizing s with
  | nil =>
    show (Except.ok [], s) = _
    simp [written]
  | cons x xs ih =>
    obtain ⟨t, index⟩ := x
    have hrow : (testRow c waves index t : CommandM (StateM Scene) TestResult).run.run s =
        (.ok (c.row s.files (t, index)), s) := by
      rw [testRow_run, runTest_run hc]
      rfl
    unfold testRows
    rw [run_bind_of_ok hrow]
    have hsay : (Workspace.say (c.row s.files (t, index)).row :
        CommandM (StateM Scene) Unit).run.run s =
        (.ok (), { s with out := s.out ++ (c.row s.files (t, index)).row ++ "\n" }) := rfl
    rw [run_bind_of_ok hsay, run_bind_of_ok (ih _)]
    simp only [List.map_cons, written, String.append_assoc]
    rfl

theorem forM_say (lines : List String) :
    (lines.forM Workspace.say : CommandM (StateM Scene) Unit) = sayAll lines := by
  induction lines with
  | nil => rfl
  | cons line lines ih =>
    show (Workspace.say line >>= fun _ => lines.forM Workspace.say) = _
    rw [ih]
    rfl

theorem written_append (ls ls' : List String) :
    written (ls ++ ls') = written ls ++ written ls' := by
  induction ls with
  | nil => simp [written]
  | cons l ls ih => simp only [List.cons_append, written, ih, String.append_assoc]

theorem printed_of_ne {rows : List String} (h : rows ≠ []) :
    printed rows = written tableHead ++ written rows := by
  rw [printed, if_neg h, written_append]

theorem count_told (status : TestStatus) (rows : List TestResult) :
    TableLine.count status.name (rows.map TestResult.told) = TestResult.count status rows := by
  have hname : ∀ other : TestStatus, other.name = status.name ↔ other = status := by
    intro other
    cases status <;> cases other <;> decide
  rw [TableLine.count, TestResult.count, List.countP_map]
  apply List.countP_congr
  intro r _
  simp [TestResult.told, hname]

theorem summary_told (rows : List TestResult) :
    TableLine.summary (rows.map TestResult.told) = TestResult.summary rows := by
  have hpass : TableLine.count "PASS" (rows.map TestResult.told) = TestResult.count .pass rows :=
    count_told .pass rows
  have hfail : TableLine.count "FAIL" (rows.map TestResult.told) = TestResult.count .fail rows :=
    count_told .fail rows
  have herror : TableLine.count "ERROR" (rows.map TestResult.told) =
    TestResult.count .error rows := count_told .error rows
  unfold TableLine.summary TestResult.summary
  rw [hpass, hfail, herror, List.length_map]

/-- The rows of a regression, one for each selected entry in the order of the file. -/
def Config.rows (c : Config) (files : FileTree) (args : RegressArgs) : List TestResult :=
  (args.select c.tests).map (c.row files)

theorem regressCommand_run {s : Scene} {given : Option String} {path : Path}
    (hload : answer (loadConfig given) s.files = .ok (path, c)) (hc : c.outputs = {})
    (quiet : Bool) (args : RegressArgs) :
    ∃ code err, (regressCommand quiet given args : CommandM (StateM Scene) Nat).run.run s =
        (.ok code, { s with
          out := s.out ++ printed ((c.rows s.files args).map TestResult.row)
          err }) ∧
      code = (if TestResult.count .pass (c.rows s.files args) = (c.rows s.files args).length then 0
        else 1) ∧
      (quiet = false → c.rows s.files args ≠ [] →
        ∃ before, err = before ++ TestResult.summary (c.rows s.files args) ++ "\n") := by
  unfold regressCommand
  simp only [(looks_loadConfig given).run_bind, hload]
  split
  next htests =>
    have hrows : c.rows s.files args = [] := by
      rw [Config.rows, List.isEmpty_iff.mp htests]
      rfl
    rw [run_bind_of_ok (remark_run quiet _ s), hrows]
    exact ⟨0, _, by simp [printed]; rfl, rfl, fun _ h => absurd rfl h⟩
  next =>
    split
    next hselected =>
      have hrows : c.rows s.files args = [] := by
        rw [Config.rows, List.isEmpty_iff.mp hselected]
        rfl
      rw [run_bind_of_ok (remark_run quiet _ s), hrows]
      exact ⟨0, _, by simp [printed]; rfl, rfl, fun _ h => absurd rfl h⟩
    next hselected =>
      have hne : c.rows s.files args ≠ [] := by
        simpa [Config.rows] using hselected
      rw [forM_say, run_bind_of_ok (remark_run quiet _ s)]
      generalize (if quiet then s.err else _) = before
      rw [run_bind_of_ok (sayAll_run _ _), run_bind_of_ok (testRows_run hc _ _ _),
        run_bind_of_ok (remark_run quiet _ _)]
      generalize (if quiet then _ else _ : String) = err
      rw [run_bind_of_ok (remark_run quiet _ _)]
      refine ⟨_, if quiet then err else err ++ TestResult.summary (c.rows s.files args) ++ "\n",
        ?_, rfl, ?_⟩
      · rw [printed_of_ne (by simpa using hne), ← String.append_assoc]
        rfl
      · rintro rfl _
        exact ⟨err, rfl⟩

/-- A run of a configuration without outputs tells what playing it gives. -/
theorem runCommand_play {s : Scene} {given : Option String} {path : Path}
    (hload : answer (loadConfig given) s.files = .ok (path, c)) (hc : c.outputs = {})
    (quiet : Bool) :
    ∃ err, (runCommand quiet given {} : CommandM (StateM Scene) Nat).run.run s =
      match answer c.play s.files with
      | .ok (_, report) =>
        (.ok report.outcome.exitCode,
          { s with
            out := s.out ++ written (report.lines ++ [verdictLine report.outcome])
            err })
      | .error e => (.error e, { s with err }) := by
  have hnothing : c.override {} = c := Config.override_nothing c false
  unfold runCommand Config.play
  simp only [(looks_loadConfig given).run_bind, hload, hnothing, hc, (looks_attempt _ _).run_bind,
    (looks_attempt _ _).answer_bind, (looks_buildMemory c).run_bind,
    (looks_buildMemory c).answer_bind, (looks_playScript _ _ _).answer_bind]
  rcases answer (attempt .config c.check : CommandM (StateM Scene) Unit) s.files with e | _
  · exact ⟨s.err, rfl⟩
  rcases answer (buildMemory c) s.files with e | ⟨memory, words⟩
  · exact ⟨s.err, rfl⟩
  rcases answer (attempt .config c.settings : CommandM (StateM Scene) Settings) s.files
    with e | settings
  · exact ⟨s.err, rfl⟩
  have hfolders : (ensureFolders {} : CommandM (StateM Scene) Unit) = pure () := rfl
  simp only [hfolders, pure_bind]
  rw [run_bind_of_ok (remark_run quiet _ s), (looks_playScript _ _ _).run_bind]
  generalize (if quiet then s.err else _) = err
  refine ⟨err, ?_⟩
  simp only [ok_bind]
  rcases answer (playScript c.script memory settings {} : CommandM (StateM Scene) Report) s.files
    with e | report
  · rfl
  have hreport (u : Scene) : (reportRun quiet false {} report :
      CommandM (StateM Scene) Unit).run.run u =
      (.ok (),
        { u with out := u.out ++ written (report.lines ++ [verdictLine report.outcome]) }) := by
    have hsay : (reportRun quiet false {} report : CommandM (StateM Scene) Unit) =
      sayAll report.lines >>= fun _ => Workspace.say (verdictLine report.outcome) := rfl
    rw [hsay, run_bind_of_ok (sayAll_run _ _), written_append, ← String.append_assoc]
    have hverdict : written [verdictLine report.outcome] = verdictLine report.outcome ++ "\n" := by
      simp [written]
    rw [hverdict, ← String.append_assoc]
    rfl
  simp only [run_bind_of_ok (hreport _)]
  rfl

theorem alone_ok {c' : Config} (h : answer (testConfig c index t) files = .ok c') :
    c.alone files index t = answer c'.play files := by
  rw [Config.alone, h]
  rfl

theorem alone_error {e : CommandError} : c.alone files index t = .error e ↔
    answer (testConfig c index t) files = .error e ∨
      ∃ c', answer (testConfig c index t) files = .ok c' ∧
        answer (buildMemory c') files = .error e := by
  rcases h : answer (testConfig c index t) files with e' | c'
  · rw [Config.alone, h]
    constructor
    · rintro ⟨⟩
      exact .inl rfl
    · rintro (⟨⟨⟩⟩ | ⟨_, ⟨⟩, _⟩)
      rfl
  · obtain ⟨hcheck, hpass, hfail, _⟩ := testConfig_check h
    rw [alone_ok h]
    rcases himage : answer (buildMemory c') files with e' | ⟨memory, words⟩
    · have hplay : answer c'.play files = .error e' := by
        unfold Config.play
        rw [(looks_attempt _ _).answer_bind, answer_attempt_ok.mpr hcheck, ok_bind,
          (looks_buildMemory c').answer_bind, himage]
        rfl
      rw [hplay]
      constructor
      · rintro ⟨⟩
        exact .inr ⟨c', rfl, himage⟩
      · rintro (⟨⟨⟩⟩ | ⟨_, ⟨⟩, he⟩)
        cases himage.symm.trans he
        rfl
    -- with the image there is nothing left to err
    · obtain ⟨known, report, hplay⟩ := play_ok hcheck hpass hfail himage
      rw [hplay]
      constructor
      · rintro ⟨⟩
      · rintro (⟨⟨⟩⟩ | ⟨_, ⟨⟩, he⟩)
        cases himage.symm.trans he

theorem alone_common (tests : List TestEntry) :
    Config.alone { c with tests } files index t = c.alone files index t := rfl

/-- An entry runs by itself with the sentinels that its sources name. -/
theorem alone_effective {known : Sentinels} {report : Report}
    (h : c.alone files index t = .ok (known, report)) : c.Effective files t known := by
  rcases hconfig : answer (testConfig c index t) files with e | c'
  · rw [Config.alone, hconfig] at h
    cases h
  · rw [alone_ok hconfig] at h
    obtain ⟨labels, hlabels, rfl, _⟩ := testConfig_ok.mp hconfig
    obtain ⟨_, _, hplay⟩ := (looks_attempt _ _).answer_bind_ok.mp h
    obtain ⟨⟨memory, words⟩, _, hplay⟩ := (looks_buildMemory _).answer_bind_ok.mp hplay
    obtain ⟨settings, hsettings, hplay⟩ := (looks_attempt _ _).answer_bind_ok.mp hplay
    obtain ⟨report', _, hpure⟩ := (looks_playScript _ _ _).answer_bind_ok.mp hplay
    cases hpure
    have hknown := answer_attempt_ok.mp hsettings
    have hcheck : (c.forTest t labels).run.passAddr = some settings.sentinels.pass ∧
        (c.forTest t labels).run.failAddr = some settings.sentinels.fail := by
      unfold Config.settings at hknown
      split at hknown
      next => cases hknown
      next => cases hknown
      next hpass hfail =>
        cases hknown
        exact ⟨hpass, hfail⟩
    obtain ⟨hpass, hfail⟩ := hcheck
    exact ⟨labels, hlabels, effective_eq_some_iff.mp hpass, effective_eq_some_iff.mp hfail⟩

theorem count_add (rows : List TestResult) :
    TestResult.count .pass rows + TestResult.count .fail rows + TestResult.count .error rows =
      rows.length := by
  induction rows with
  | nil => rfl
  | cons r rows ih =>
    simp only [TestResult.count, List.countP_cons] at ih ⊢
    cases r.status <;> simp <;> omega

end

/-- A regression that records nothing prints one row for each selected entry, in their order. A row
tells what its entry gives by itself: neither the other entries nor the selection change it, and a
run that loads the same configuration gives the same. An entry errs exactly if its configuration or
its image is no good, and the exit code says whether all rows passed. -/
theorem regress_rows_alone {s : Scene} {given : Option String} {path : Path} {c : Config}
    (hload : answer (loadConfig given) s.files = .ok (path, c)) (htrace : c.trace.enabled = false)
    (hcoverage : c.coverage.path = none) (quiet : Bool) (args : RegressArgs) :
    ∃ picked rows lines code err,
      args.Picked c.tests picked ∧
      (regressCommand quiet given args : CommandM (StateM Scene) Nat).run.run s =
        (.ok code, { s with out := s.out ++ printed rows, err }) ∧
      rows.map TableLine.read = lines.map some ∧
      List.Forall₂ (fun x line => ∃ name, x.1.Called name ∧
        TableLine.Tells name (c.alone s.files x.2 x.1) line) picked lines ∧
      TableLine.count "PASS" lines + TableLine.count "FAIL" lines + TableLine.count "ERROR" lines =
        picked.length ∧
      (quiet = false → picked ≠ [] → ∃ before, err = before ++ TableLine.summary lines ++ "\n") ∧
      (code = 0 ∨ code = 1) ∧ (code = 0 ↔ ∀ line ∈ lines, line.result = "PASS") ∧
      ∀ index t,
        (∀ tests, Config.alone { c with tests } s.files index t = c.alone s.files index t) ∧
        (∀ e, c.alone s.files index t = .error e ↔
          answer (testConfig c index t) s.files = .error e ∨
            ∃ c', answer (testConfig c index t) s.files = .ok c' ∧
              answer (buildMemory c') s.files = .error e) ∧
        (∀ known report, c.alone s.files index t = .ok (known, report) →
          c.Effective s.files t known) ∧
        ∀ c', answer (testConfig c index t) s.files = .ok c' → ∀ (u : Scene) given path quiet,
          answer (loadConfig given) u.files = .ok (path, c') →
          answer (buildMemory c') u.files = answer (buildMemory c') s.files →
          ∃ err, match c.alone s.files index t with
            | .ok (_, report) => ∃ text, report.Shown text ∧
              (runCommand quiet given {} : CommandM (StateM Scene) Nat).run.run u =
                (.ok (if report.outcome = .pass then 0 else 1),
                  { u with out := u.out ++ text, err })
            | .error e =>
              (runCommand quiet given {} : CommandM (StateM Scene) Nat).run.run u =
                (.error e, { u with err }) := by
  have hc : c.outputs = {} := by
    simp [Config.outputs, htrace, hcoverage]
  obtain ⟨code, err, hrun, hcode, hsummary⟩ := regressCommand_run hload hc quiet args
  have hcount (status : TestStatus) : TableLine.count status.name
      ((c.rows s.files args).map TestResult.told) = TestResult.count status (c.rows s.files args) :=
    count_told status _
  have hlength : (c.rows s.files args).length = (args.select c.tests).length := List.length_map _
  refine ⟨args.select c.tests, (c.rows s.files args).map TestResult.row,
    (c.rows s.files args).map TestResult.told, code, err, args.select_picked c.tests, hrun, ?_, ?_,
    ?_, ?_, ?_, ?_, ?_⟩
  · rw [List.map_map, List.map_map]
    exact List.map_congr_left fun r _ => r.read_row
  · rw [Config.rows, List.map_map]
    exact List.forall₂_map_right_iff.mpr (List.forall₂_same.mpr fun x _ =>
      ⟨_, TestEntry.called_iff.mpr rfl, row_tells c s.files x⟩)
  · rw [← hlength, ← count_add, ← hcount, ← hcount, ← hcount]
    rfl
  · rw [summary_told]
    intro hquiet hpicked
    exact hsummary hquiet (by simpa [Config.rows] using hpicked)
  · rw [hcode]
    split
    · exact .inl rfl
    · exact .inr rfl
  · have hall : TestResult.count .pass (c.rows s.files args) = (c.rows s.files args).length ↔
        ∀ line ∈ (c.rows s.files args).map TestResult.told, line.result = "PASS" := by
      rw [← hcount, ← List.length_map TestResult.told, TableLine.count, List.countP_eq_length]
      simp only [decide_eq_true_eq]
      rfl
    rw [hcode, ← hall]
    split
    next h => exact iff_of_true rfl h
    next h => exact iff_of_false nofun h
  · intro index t
    refine ⟨fun _ => alone_common _, fun _ => alone_error, fun _ _ => alone_effective,
      fun c' h u given path quiet hu hsame => ?_⟩
    obtain ⟨_, _, _, houtputs⟩ := testConfig_check h
    obtain ⟨err, hstand⟩ := runCommand_play hu (houtputs.trans hc) quiet
    rw [alone_ok h, ← play_congr hsame]
    refine ⟨err, ?_⟩
    rcases hplay : answer c'.play u.files with e | ⟨known, report⟩
    · rw [hplay] at hstand
      exact hstand
    · rw [hplay] at hstand
      refine ⟨_, report.shown_lines, ?_⟩
      rw [← Outcome.exitCode_eq]
      exact hstand

/-- Two tests, the second without its image, and the first one in a configuration of its own. -/
def twoTests : Scene where
  files :=
    { root := .folder
        [("cyclebench.toml", .file (.text
          ("[run]\npass_addr = 0x10\nfail_addr = 0x14\n[[test]]\nimage = \"a.hex\"\n" ++
            "[[test]]\nimage = \"b.hex\""))),
         ("single.toml", .file (.text
          "[run]\npass_addr = 0x10\nfail_addr = 0x14\n[memory]\nimage = \"a.hex\"")),
         ("a.hex", .file (.text "cafe\n"))] }

def singleTest : Config where
  run := { passAddr := some 0x10, failAddr := some 0x14 }
  memory := { image := some "/a.hex" }
  trace := { path := "/waves.vcd" }

def twoTestsConfig : Config where
  run := singleTest.run
  trace := singleTest.trace
  tests := [{ image := "/a.hex" }, { image := "/b.hex" }]

theorem twoTests_loaded :
    answer (loadConfig none) twoTests.files = .ok ("/cyclebench.toml", twoTestsConfig) :=
  eq_ok_of_toOption (by decide +kernel)

theorem twoTests_first : answer (testConfig twoTestsConfig 0 { image := "/a.hex" }) twoTests.files =
    .ok singleTest :=
  eq_ok_of_toOption (by decide +kernel)

theorem twoTests_passes : ∃ report, twoTestsConfig.alone twoTests.files 0 { image := "/a.hex" } =
    .ok (⟨0x10, 0x14⟩, report) ∧ report.outcome = .pass := by
  have hpass : (twoTestsConfig.alone twoTests.files 0 { image := "/a.hex" }).toOption.map
    (fun x => (x.1, x.2.outcome)) = some (⟨0x10, 0x14⟩, .pass) := by decide +kernel
  rcases h : twoTestsConfig.alone twoTests.files 0 { image := "/a.hex" } with e | ⟨known, report⟩
  · rw [h] at hpass
    cases hpass
  · rw [h] at hpass
    obtain ⟨rfl, houtcome⟩ := Prod.mk.inj (Option.some.inj hpass)
    exact ⟨report, rfl, houtcome⟩

theorem twoTests_errs :
    ∃ e, twoTestsConfig.alone twoTests.files 1 { image := "/b.hex" } = .error e := by
  have hnone : (twoTestsConfig.alone twoTests.files 1 { image := "/b.hex" }).toOption = none := by
    decide +kernel
  rcases h : twoTestsConfig.alone twoTests.files 1 { image := "/b.hex" } with e | r
  · exact ⟨e, rfl⟩
  · rw [h] at hnone
    cases hnone

theorem regress_rows_alone_of_two_tests :
    answer (loadConfig none) twoTests.files = .ok ("/cyclebench.toml", twoTestsConfig) ∧
      twoTestsConfig.trace.enabled = false ∧ twoTestsConfig.coverage.path = none ∧
      (∃ first second message err err' text, ∃ report : Report,
        (regressCommand true none {} : CommandM (StateM Scene) Nat).run.run twoTests =
          (.ok 1, { twoTests with out := printed [first, second], err }) ∧
        TableLine.read first = some ⟨"PASS", some 0x10, some 0x14, some report.ticks, "a"⟩ ∧
        TableLine.read second = some ⟨"ERROR", none, none, none, "b" ++ ": " ++ message⟩ ∧
        report.Shown text ∧
        (runCommand true (some "/single.toml") {} : CommandM (StateM Scene) Nat).run.run twoTests =
          (.ok 0, { twoTests with out := text, err := err' })) ∧
      ∃ row message err,
        (regressCommand true none { filter := some "b" } : CommandM (StateM Scene) Nat).run.run
          twoTests = (.ok 1, { twoTests with out := printed [row], err }) ∧
        TableLine.read row = some ⟨"ERROR", none, none, none, "b" ++ ": " ++ message⟩ := by
  have hload := twoTests_loaded
  have hsingle : answer (loadConfig (some "/single.toml")) twoTests.files =
      .ok ("/single.toml", singleTest) := eq_ok_of_toOption (by decide +kernel)
  obtain ⟨e, herrs⟩ := twoTests_errs
  obtain ⟨report, hplays, houtcome⟩ := twoTests_passes
  refine ⟨hload, rfl, rfl, ?_, ?_⟩
  · obtain ⟨picked, rows, lines, code, err, hpicked, hrun, hread, htells, _, _, hcode, hpass,
      halone⟩ := regress_rows_alone hload rfl rfl true {}
    obtain rfl : picked = [({ image := "/a.hex" }, 0), ({ image := "/b.hex" }, 1)] :=
      hpicked.eq_select
    obtain ⟨first, _, ⟨name, hname, hline⟩, hrest, rfl⟩ := List.forall₂_cons_left_iff.mp htells
    obtain ⟨second, _, ⟨name', hname', hline'⟩, hnil, rfl⟩ := List.forall₂_cons_left_iff.mp hrest
    obtain rfl := List.forall₂_nil_left_iff.mp hnil
    obtain ⟨row, _, rfl, hrow, hread⟩ := List.map_eq_cons_iff.mp hread
    obtain ⟨row', _, rfl, hrow', hread⟩ := List.map_eq_cons_iff.mp hread
    obtain rfl := List.map_eq_nil_iff.mp hread
    rw [← TestEntry.called_iff.mp hname, hplays] at hline
    rw [← TestEntry.called_iff.mp hname', herrs] at hline'
    obtain rfl := hline.of_pass houtcome
    obtain rfl := hline'.of_error
    obtain rfl : code = 1 := by
      refine hcode.resolve_left fun h => ?_
      simpa using hpass.mp h _ (List.mem_cons_of_mem _ List.mem_cons_self)
    obtain ⟨_, _, _, hstand⟩ := halone 0 { image := "/a.hex" }
    have hstand := hstand singleTest twoTests_first twoTests _ _ true hsingle rfl
    rw [hplays] at hstand
    obtain ⟨err', text, hshown, hstand⟩ := hstand
    rw [if_pos houtcome] at hstand
    exact ⟨row, row', _, err, err', text, report, hrun, hrow, hrow', hshown, hstand⟩
  · obtain ⟨picked, rows, lines, code, err, hpicked, hrun, hread, htells, _, _, hcode, hpass, _⟩ :=
      regress_rows_alone hload rfl rfl true { filter := some "b" }
    obtain rfl : picked = [({ image := "/b.hex" }, 1)] := hpicked.eq_select.trans (by decide)
    obtain ⟨line, _, ⟨name, hname, hline⟩, hnil, rfl⟩ := List.forall₂_cons_left_iff.mp htells
    obtain rfl := List.forall₂_nil_left_iff.mp hnil
    obtain ⟨row, _, rfl, hrow, hread⟩ := List.map_eq_cons_iff.mp hread
    obtain rfl := List.map_eq_nil_iff.mp hread
    rw [← TestEntry.called_iff.mp hname, herrs] at hline
    obtain rfl := hline.of_error
    obtain rfl : code = 1 := by
      refine hcode.resolve_left fun h => ?_
      simpa using hpass.mp h _ List.mem_cons_self
    exact ⟨row, _, err, hrun, hrow⟩

end BusBench

import BusBench.CheckCommand
import BusBench.Proofs.Recordings
import BusBench.RunCommand

namespace BusBench

/-- What a run needs before it makes its outputs is there, and it makes sense. -/
structure Config.Ready (c : Config) (files : FileTree) (memory : Memory) (settings : Settings) :
    Prop where
  check : c.check = .ok ()
  image : ∃ words, answer (buildMemory c) files = .ok (memory, words)
  complete : c.settings = .ok settings
  sensible : settings.checkWith memory = .ok ()

section

variable {c : Config} {files : FileTree} {memory : Memory} {settings : Settings} {words : Nat}

theorem Config.settings_of_check {pass fail : Word} (h : c.check = .ok ())
    (hpass : c.run.passAddr = some pass) (hfail : c.run.failAddr = some fail) :
    c.settings =
        .ok ⟨⟨pass, fail⟩, c.run.timeout, ⟨c.run.halfPeriod, c.run.resetTicks⟩⟩ ∧
      Settings.check ⟨⟨pass, fail⟩, c.run.timeout, ⟨c.run.halfPeriod, c.run.resetTicks⟩⟩ =
        .ok () := by
  obtain ⟨_, hdiffer, hsound, _⟩ := Config.check_eq_ok_iff.mp h
  have hne : pass ≠ fail := hdiffer pass hpass fail hfail
  constructor
  · simp only [settings, hpass, hfail]
  · exact Settings.check_eq_ok_iff.mpr ⟨hne, Nat.pos_of_ne_zero hsound.halfPeriod,
      Nat.pos_of_ne_zero hsound.timeout⟩

/-- Once the image is loaded, nothing is left that the settings could fail for. -/
theorem Config.ready (h : c.check = .ok ()) (hpass : c.run.passAddr.isSome)
    (hfail : c.run.failAddr.isSome) (himage : answer (buildMemory c) files = .ok (memory, words)) :
    ∃ settings, c.Ready files memory settings := by
  obtain ⟨pass, hpass⟩ := Option.isSome_iff_exists.mp hpass
  obtain ⟨fail, hfail⟩ := Option.isSome_iff_exists.mp hfail
  obtain ⟨hsettings, hset⟩ := Config.settings_of_check h hpass hfail
  obtain ⟨_, _, hsound, _⟩ := Config.check_eq_ok_iff.mp h
  -- loading an image moves no bound, so the range that was checked is the one that is run on
  obtain ⟨hlo, hhi, _⟩ := buildMemory_like himage
  refine ⟨_, h, ⟨words, himage⟩, hsettings, ?_⟩
  have hrange : ¬ memory.hi < memory.lo := by
    rw [hlo, hhi]
    exact UInt32.not_lt.mpr hsound.range
  simp only [Settings.checkWith, hset, if_neg hrange]

theorem Config.Ready.settings_check (h : c.Ready files memory settings) :
    settings.check = .ok () ∧ memory.lo ≤ memory.hi := by
  have hstart := h.sensible
  unfold Settings.checkWith at hstart
  split at hstart
  next => cases hstart
  next hset =>
    split at hstart
    next => cases hstart
    next hrange => exact ⟨hset, UInt32.not_lt.mp hrange⟩

end

section

variable {quiet : Bool} {given : Option String}

theorem looks_checkSettings (c : Config) :
    Looks (checkSettings c : CommandM (StateM Scene) String) := by
  unfold checkSettings
  split
  next => exact (looks_attempt _ _).bind fun _ => (looks_attempt _ _).bind fun _ => .pure _
  next => exact .pure _

theorem looks_checkImages (n : Nat) (ts : List TestEntry) :
    Looks (checkImages n ts : CommandM (StateM Scene) Unit) := by
  induction ts generalizing n with
  | nil => exact .pure _
  | cons t ts ih =>
    refine Looks.bind (fun _ => rfl) fun found => ?_
    cases found with
    | true => exact ih (n + 1)
    | false => exact fun _ => rfl

/-- A configuration that was checked could be loaded with its image. -/
theorem checkCommand_ok {n : Nat} {s t : Scene}
    (h : (checkCommand quiet given : CommandM (StateM Scene) Nat).run.run s = (.ok n, t)) :
    t.files = s.files ∧ ∃ path c memory words, answer (loadConfig given) s.files = .ok (path, c) ∧
      answer (buildMemory c) s.files = .ok (memory, words) := by
  obtain ⟨⟨path, c⟩, hload, hbuild⟩ := (looks_loadConfig given).of_bind_ok h
  obtain ⟨⟨memory, words⟩, himage, hsettings⟩ := (looks_buildMemory c).of_bind_ok hbuild
  obtain ⟨sentinels, _, himages⟩ := (looks_checkSettings c).of_bind_ok hsettings
  obtain ⟨_, _, hremark⟩ := (looks_checkImages 0 c.tests).of_bind_ok himages
  rw [run_bind_of_ok (remark_run quiet _ s)] at hremark
  cases hremark
  exact ⟨rfl, path, c, memory, words, hload, himage⟩

/-- Lines as they are written one after the other. -/
def written : List String → String
  | [] => ""
  | line :: lines => line ++ "\n" ++ written lines

theorem sayAll_run (lines : List String) (s : Scene) :
    (sayAll lines : CommandM (StateM Scene) Unit).run.run s =
      (.ok (), { s with out := s.out ++ written lines }) := by
  induction lines generalizing s with
  | nil =>
    show (Except.ok (), s) = _
    simp [written]
  | cons line lines ih =>
    have hsay : (Workspace.say line : CommandM (StateM Scene) Unit).run.run s =
        (.ok (), { s with out := s.out ++ line ++ "\n" }) := rfl
    rw [sayAll, run_bind_of_ok hsay, ih]
    simp only [written, String.append_assoc]

theorem talks_sayAll (lines : List String) :
    Talks (sayAll lines : CommandM (StateM Scene) Unit) :=
  fun s => ⟨(), _, s.err, sayAll_run lines s⟩

theorem talks_reportRun (quiet json : Bool) (outputs : Outputs) (report : Report) :
    Talks (reportRun quiet json outputs report : CommandM (StateM Scene) Unit) := by
  unfold reportRun
  -- whatever there is to tell, every branch is a chain of lines
  repeat' first
    | exact talks_say _
    | exact talks_warn _
    | exact talks_remark _ _
    | exact talks_sayAll _
    | refine Talks.bind ?_ fun _ => ?_
    | split

end

theorem Config.override_nothing (c : Config) (json : Bool) : c.override { json } = c := by
  simp [override]

section

variable {c : Config} {memory : Memory} {settings : Settings} {s : Scene}

/-- What is left of a run once its memory and its settings are there. -/
theorem reported_run_meets (hset : settings.check = .ok ()) (hrange : memory.lo ≤ memory.hi)
    (quiet json : Bool) (line : String) :
    Meets (do
      ensureFolders c.outputs
      remark quiet line
      let report ← playScript c.script memory settings c.outputs
      reportRun quiet json c.outputs report
      return report.outcome.exitCode)
      (fun code => code = 0 ∨ code = 1) fun e t => c.outputs.Fails t.files e := by
  refine (ensureFolders_meets c.outputs).bind fun _ _ => ?_
  refine (talks_remark quiet _).meets.bind fun _ _ => ?_
  refine (playScript_meets c.script c.outputs hset hrange).bind fun report _ => ?_
  refine (talks_reportRun quiet json c.outputs report).meets.bind fun _ _ => .pure ?_
  cases h : report.outcome.passed <;> simp [Outcome.exitCode, h]

/-- A run of a configuration that is ready ends with its verdict, unless an output fails. -/
theorem runCommand_ready {given : Option String} {path : Path}
    (hload : answer (loadConfig given) s.files = .ok (path, c))
    (hready : c.Ready s.files memory settings) (quiet json : Bool) :
    ∃ res t, (runCommand quiet given { json } : CommandM (StateM Scene) Nat).run.run s = (res, t) ∧
      (res = .ok 0 ∨ res = .ok 1 ∨ ∃ e, res = .error e ∧ c.outputs.Fails t.files e) := by
  obtain ⟨words, himage⟩ := hready.image
  obtain ⟨hset, hrange⟩ := hready.settings_check
  have hcheck : answer (attempt .config c.check : CommandM (StateM Scene) Unit) s.files = .ok () :=
    answer_attempt_ok.mpr hready.check
  have hsettings : answer (attempt .config c.settings : CommandM (StateM Scene) Settings) s.files =
    .ok settings := answer_attempt_ok.mpr hready.complete
  -- each step up to the settings is answered by `hready`, so only what writes is left
  unfold runCommand
  simp only [(looks_loadConfig given).run_bind, hload, Config.override_nothing,
    (looks_attempt _ _).run_bind, hcheck, (looks_buildMemory c).run_bind, himage, hsettings]
  have hplay := reported_run_meets (c := c) hset hrange quiet json
    ("   Simulating " ++ path ++ " (" ++ toString c.script.length ++ " script ops, " ++
      toString words ++ " image words)")
  rcases hplay s with ⟨code, t, h, hcode⟩ | ⟨e, t, h, he⟩
  · exact ⟨_, t, h, hcode.elim (fun h => .inl (by rw [h])) fun h => .inr (.inl (by rw [h]))⟩
  · exact ⟨_, t, h, .inr (.inr ⟨e, rfl, he⟩)⟩

end

/-- What was checked runs: with both common sentinels, nothing that a run needs before it makes its
outputs is missing or wrong, and it ends with its verdict unless an output fails. -/
theorem checked_config_runs {s s' : Scene} {quiet : Bool} {given : Option String}
    (h : (checkCommand quiet given : CommandM (StateM Scene) Nat).run.run s = (.ok 0, s')) :
    s'.files = s.files ∧ ∃ path c, answer (loadConfig given) s.files = .ok (path, c) ∧
      (c.run.passAddr.isSome → c.run.failAddr.isSome → ∃ memory settings,
        c.Ready s.files memory settings ∧ ∀ (t : Scene) (quiet json : Bool), t.files = s.files →
          ∃ res t', (runCommand quiet given { json } : CommandM (StateM Scene) Nat).run.run t =
              (res, t') ∧
            (res = .ok 0 ∨ res = .ok 1 ∨ ∃ e, res = .error e ∧ c.outputs.Fails t'.files e)) := by
  obtain ⟨hfiles, path, c, memory, words, hload, himage⟩ := checkCommand_ok h
  refine ⟨hfiles, path, c, hload, fun hpass hfail => ?_⟩
  obtain ⟨settings, hready⟩ := Config.ready (loadConfig_ok hload) hpass hfail himage
  refine ⟨memory, settings, hready, fun t quiet json ht => ?_⟩
  rw [← ht] at hload hready
  exact runCommand_ready hload hready quiet json

/-- A read of the passing sentinel from an image of one word. -/
def oneRead : Scene where
  files :=
    { root := .folder
        [("cyclebench.toml", .file (.text
          ("script = [\x7b op = \"read\", addr = 0x10 \x7d]\n" ++
            "[run]\npass_addr = 0x10\nfail_addr = 0x14\n[memory]\nimage = \"a.hex\""))),
         ("a.hex", .file (.text "cafe\n"))] }

def oneReadConfig : Config where
  run := { passAddr := some 0x10, failAddr := some 0x14 }
  memory := { image := some "/a.hex" }
  trace := { path := "/waves.vcd" }
  script := [.read 0x10 none]

theorem checked_config_runs_of_one_read :
    ∃ s', (checkCommand true none : CommandM (StateM Scene) Nat).run.run oneRead = (.ok 0, s') ∧
      answer (loadConfig none) oneRead.files = .ok ("/cyclebench.toml", oneReadConfig) ∧
      ∀ quiet json, ∃ res t,
        (runCommand quiet none { json } : CommandM (StateM Scene) Nat).run.run oneRead = (res, t) ∧
          (res = .ok 0 ∨ res = .ok 1) := by
  have hcheck :
      ((checkCommand true none : CommandM (StateM Scene) Nat).run.run oneRead).1.toOption =
        some 0 := by decide +kernel
  have hload : (answer (loadConfig none) oneRead.files).toOption =
    some ("/cyclebench.toml", oneReadConfig) := by decide +kernel
  rcases hrun : (checkCommand true none : CommandM (StateM Scene) Nat).run.run oneRead with ⟨r, s'⟩
  rw [hrun] at hcheck
  obtain rfl := eq_ok_of_toOption hcheck
  obtain ⟨_, path, c, hc, hruns⟩ := checked_config_runs hrun
  have hload := eq_ok_of_toOption hload
  cases hload.symm.trans hc
  obtain ⟨memory, settings, _, hruns⟩ := hruns rfl rfl
  refine ⟨s', rfl, hload, fun quiet json => ?_⟩
  obtain ⟨res, t, ht, hres⟩ := hruns oneRead quiet json rfl
  refine ⟨res, t, ht, ?_⟩
  rcases hres with h | h | ⟨e, _, hfails⟩
  · exact .inl h
  · exact .inr h
  · exact absurd rfl hfails.paths_ne_nil

end BusBench

import BusBench.Proofs.Frames
import BusBench.Proofs.Nested
import BusBench.Proofs.Recordings
import BusBench.Proofs.SentinelPrecedence

namespace BusBench

section

variable {ε α β : Type} {x : ExceptT ε (StateM Scene) α} {f : α → ExceptT ε (StateM Scene) β}
  {ps : List Path}

/-- A computation that leaves all files but those that some paths name. -/
def Spares (ps : List Path) (x : ExceptT ε (StateM Scene) α) : Prop :=
  ∀ s, FileTree.Keeps (ps.map (Path.place s.files.here)) s.files (x.run.run s).2.files

theorem Looks.spares (h : Looks x) : Spares ps x := by
  intro s
  rw [h s]
  exact .refl _ _

theorem Talks.spares (h : Talks x) : Spares ps x := by
  intro s
  obtain ⟨a, out, err, hx⟩ := h s
  rw [hx]
  exact .refl _ _

theorem Spares.mono {qs : List Path} (h : Spares ps x) (hsub : ps ⊆ qs) : Spares qs x :=
  fun s => (h s).mono (List.map_subset _ hsub)

theorem Spares.bind_of_answers (hx : Spares ps x)
    (hf : ∀ s a t, x.run.run s = (.ok a, t) → Spares ps (f a)) : Spares ps (x >>= f) := by
  intro s
  have hfirst := hx s
  rcases h : x.run.run s with ⟨e | a, t⟩
  · rw [h] at hfirst
    rw [run_bind_of_error h]
    exact hfirst
  · rw [h] at hfirst
    have hnext := hf s a t h t
    rw [hfirst.here] at hnext
    rw [run_bind_of_ok h]
    exact hfirst.trans hnext

theorem Spares.bind (hx : Spares ps x) (hf : ∀ a, Spares ps (f a)) : Spares ps (x >>= f) :=
  hx.bind_of_answers fun _ a _ _ => hf a

theorem Spares.adapt {δ : Type} (h : Spares ps x) (wrap : ε → δ) : Spares ps (x.adapt wrap) := by
  intro s
  rw [ExceptT.run_adapt, StateT.run_map]
  exact h s

end

section

variable {outputs : Outputs}

theorem change_keeps {places : List (List String)} {f : FileTree → Except Fault FileTree}
    {s : Scene} (h : ∀ files, f s.files = .ok files → FileTree.Keeps places s.files files) :
    FileTree.Keeps places s.files (Scene.change f s).2.files := by
  unfold Scene.change
  split
  next files hf => exact h files hf
  next => exact .refl _ _

theorem save_spares {ps : List Path} {p : Path} (hp : p ∈ ps) (content : Content) :
    Spares ps (save p content : ExceptT SimulationError (StateM Scene) Unit) := by
  refine Spares.bind (fun s => ?_) fun r => Looks.spares ?_
  · refine change_keeps (f := (·.write p content)) fun files h => ?_
    refine (FileTree.write_keeps h).mono ?_
    simpa using ⟨p, hp, rfl⟩
  · cases r <;> exact fun _ => rfl

theorem ensureFolder_spares (ps : List Path) (p : Path) :
    Spares ps (ensureFolder p : CommandM (StateM Scene) Unit) := by
  unfold ensureFolder
  split
  next => exact (Looks.pure ()).spares
  next folder _ =>
    split
    next => exact (Looks.pure ()).spares
    next =>
      refine Spares.bind (fun s => ?_) fun r => (looks_attempt _ r).spares
      refine change_keeps (f := (·.makeFolders folder.length folder)) fun files h => ?_
      exact (FileTree.makeFolders_keeps h).mono (List.nil_subset _)

theorem ensureFolders_spares (outputs : Outputs) (ps : List Path) :
    Spares ps (ensureFolders outputs : CommandM (StateM Scene) Unit) :=
  ensureFolders_induction (P := Spares ps) (Looks.pure ()).spares
    (fun _ _ hx hy => hx.bind fun _ => hy) fun p _ => ensureFolder_spares ps p

theorem saveOutputs_spares {σ : Type} (outputs : Outputs)
    (bench : Bench σ (Option Vcd) (Option Coverage)) :
    Spares outputs.paths
      (saveOutputs outputs bench : ExceptT SimulationError (StateM Scene) Unit) :=
  saveOutputs_induction (P := Spares outputs.paths) (Looks.pure ()).spares
    (fun _ _ hx hy => hx.bind fun _ => hy) (fun _ hp content => save_spares hp content) bench

theorem simulate_spares {σ : Type} (device : Device σ) (start : σ) (pins : Pins) (memory : Memory)
    (settings : Settings) (outputs : Outputs) :
    Spares outputs.paths (simulate device start pins memory settings outputs :
      ExceptT SimulationError (StateM Scene) Report) := by
  rcases hstart : (recordingRig device settings).start start pins memory outputs.startTrace
    outputs.startCoverage with e | bench
  · simp only [simulate, hstart]
    exact Looks.spares fun _ => rfl
  · rcases hrun : (recordingRig device settings).run bench with ⟨result, final⟩
    have hrest {y : ExceptT SimulationError (StateM Scene) Report} (hy : Looks y) :
        Spares outputs.paths (saveOutputs outputs final >>= fun _ => y) :=
      (saveOutputs_spares outputs final).bind fun _ => hy.spares
    simp only [simulate, hstart, hrun]
    rcases h : outputs.trace with _ | target
    · exact hrest (by cases result <;> exact fun _ => rfl)
    · exact (save_spares (Outputs.mem_paths_of_trace h) _).bind fun _ =>
        hrest (by cases result <;> exact fun _ => rfl)

end

/-- The outputs that tests have, which may do without their traces. -/
def Outputs.limited (o : Outputs) (waves : Bool) : Outputs :=
  { o with trace := if waves then o.trace else none }

theorem Outputs.forTest_paths (o : Outputs) (name : String) (waves : Bool) :
    (o.forTest name waves).paths = (o.limited waves).paths.map (·.forTest name) := by
  cases waves <;> cases htrace : o.trace <;> cases hcoverage : o.coverage <;>
    simp [Outputs.forTest, Outputs.limited, Outputs.paths, htrace, hcoverage]

section

variable (c : Config) (waves : Bool)

/-- The files that a test writes. -/
def testPaths (t : TestEntry) : List Path :=
  (c.outputs.limited waves).paths.map (·.forTest t.displayName)

theorem runTest_spares (index : Nat) (t : TestEntry) :
    Spares (testPaths c waves t)
      (runTest c waves index t : CommandM (StateM Scene) (Sentinels × Report)) := by
  -- the outputs of the entry's configuration are those of all, which only its making tells
  refine (looks_testConfig c index t).spares.bind_of_answers fun s c' u h => ?_
  have hanswer : answer (testConfig c index t) s.files = .ok c' :=
    (Prod.mk.inj ((looks_testConfig c index t s).symm.trans h)).1
  obtain ⟨_, _, _, houtputs⟩ := testConfig_check hanswer
  have hpaths : (c'.outputs.forTest t.displayName waves).paths = testPaths c waves t := by
    rw [houtputs, Outputs.forTest_paths, testPaths]
  refine (looks_buildMemory c').spares.bind fun ⟨memory, _⟩ => ?_
  refine (looks_attempt _ _).spares.bind fun settings => ?_
  refine (ensureFolders_spares _ _).bind fun _ => ?_
  rw [← hpaths]
  exact ((simulate_spares _ _ _ _ _ _).adapt _).bind fun _ => (Looks.pure _).spares

theorem testRows_spares (xs : List (TestEntry × Nat)) :
    Spares (xs.flatMap fun x => testPaths c waves x.1)
      (testRows c waves xs : CommandM (StateM Scene) (List TestResult)) := by
  induction xs with
  | nil => exact (Looks.pure _).spares
  | cons x xs ih =>
    obtain ⟨t, index⟩ := x
    have hrow : Spares (testPaths c waves t)
        (testRow c waves index t : CommandM (StateM Scene) TestResult) := by
      intro s
      rw [testRow_run]
      exact runTest_spares c waves index t s
    rw [List.flatMap_cons]
    refine (hrow.mono (List.subset_append_left _ _)).bind fun r => ?_
    refine (talks_say r.row).spares.bind fun _ => ?_
    exact (ih.mono (List.subset_append_right _ _)).bind fun _ => (Looks.pure _).spares

end

/-- Each output of a test lies right in the folder of the configured path. Two outputs are one file
exactly if their folders and their names with the configured extensions agree, for the same
configured path exactly if their tests have one name; and a test that runs later leaves every file
but these. -/
theorem tests_share_files_by_name (c : Config) (waves : Bool) (xs : List (TestEntry × Nat))
    (s : Scene) {t : TestEntry} {p : Path} (hp : p ∈ (c.outputs.limited waves).paths)
    (ht : Path.Plain (t.displayName ++ p.extensions))
    (hxs : ∀ x ∈ xs, ∀ q ∈ (c.outputs.limited waves).paths,
      Path.Plain (x.1.displayName ++ q.extensions)) :
    (p.forTest t.displayName).place s.files.here =
        p.folder.place s.files.here ++ [t.displayName ++ p.extensions] ∧
      (∀ name, p.fileName? = some name →
        p.place s.files.here = p.folder.place s.files.here ++ [name]) ∧
      (∀ x ∈ xs, ∀ q ∈ (c.outputs.limited waves).paths,
        ((q.forTest x.1.displayName).place s.files.here =
            (p.forTest t.displayName).place s.files.here ↔
          q.folder.place s.files.here = p.folder.place s.files.here ∧
            x.1.displayName ++ q.extensions = t.displayName ++ p.extensions)) ∧
      (∀ x ∈ xs, (p.forTest x.1.displayName).place s.files.here =
          (p.forTest t.displayName).place s.files.here ↔ x.1.displayName = t.displayName) ∧
      ∀ content,
        s.files.root.at? ((p.forTest t.displayName).place s.files.here) = some (.file content) →
        (∀ x ∈ xs, ∀ q ∈ (c.outputs.limited waves).paths,
          q.folder.place s.files.here = p.folder.place s.files.here →
          x.1.displayName ++ q.extensions ≠ t.displayName ++ p.extensions) →
        ((testRows c waves xs : CommandM (StateM Scene) (List TestResult)).run.run
          s).2.files.root.at? ((p.forTest t.displayName).place s.files.here) =
            some (.file content) := by
  have hplace {q : Path} {name : String} (h : Path.Plain (name ++ q.extensions)) :
      (q.forTest name).place s.files.here =
        q.folder.place s.files.here ++ [name ++ q.extensions] := by
    rw [Path.forTest_eq, Path.place_join h]
  have hsame : ∀ x ∈ xs, ∀ q ∈ (c.outputs.limited waves).paths,
      ((q.forTest x.1.displayName).place s.files.here =
          (p.forTest t.displayName).place s.files.here ↔
        q.folder.place s.files.here = p.folder.place s.files.here ∧
          x.1.displayName ++ q.extensions = t.displayName ++ p.extensions) := by
    intro x hx q hq
    rw [hplace (hxs x hx q hq), hplace ht]
    constructor
    · intro h
      obtain ⟨hfolder, hname⟩ := List.append_inj' h rfl
      exact ⟨hfolder, List.singleton_inj.mp hname⟩
    · rintro ⟨hfolder, hname⟩
      rw [hfolder, hname]
  refine ⟨hplace ht, fun name => Path.place_folder, hsame, ?_, ?_⟩
  · intro x hx
    rw [hsame x hx p hp]
    simp
  · intro content hfile hapart
    refine (testRows_spares c waves xs s).files _ content ?_ hfile
    intro hmem
    obtain ⟨path, hpath, hplaced⟩ := List.mem_map.mp hmem
    obtain ⟨x, hx, hpath⟩ := List.mem_flatMap.mp hpath
    obtain ⟨q, hq, rfl⟩ := List.mem_map.mp hpath
    obtain ⟨hfolder, hname⟩ := (hsame x hx q hq).mp hplaced
    exact hapart x hx q hq hfolder hname

/-- A configuration with traces in a folder of their own. -/
def tracedConfig (tests : List TestEntry) : Config where
  run := { passAddr := some 0x10, failAddr := some 0x14 }
  trace := { enabled := true, path := "/out/waves.vcd" }
  tests := tests

/-- The image of one test, and the trace of another. -/
def tracedScene : Scene where
  files :=
    { root := .folder
        [("b.hex", .file (.text "1\n")), ("out", .folder [("a.vcd", .file (.text "kept"))])] }

/-- The test that runs writes its own trace and keeps that of the other one. -/
theorem tests_share_files_by_name_of_two_names :
    ("/out/waves.vcd" ∈ ((tracedConfig []).outputs.limited true).paths ∧
      Path.Plain "a.vcd" ∧ Path.Plain "b.vcd") ∧
    tracedScene.files.root.at? ["out", "b.vcd"] = none ∧
    ∃ root, ((testRows (tracedConfig []) true [({ image := "/b.hex" }, 1)] :
        CommandM (StateM Scene) (List TestResult)).run.run tracedScene).2.files.root = root ∧
      (root.at? ["out", "b.vcd"]).isSome = true ∧
      root.at? ["out", "a.vcd"] = some (.file (.text "kept")) := by
  have hp : "/out/waves.vcd" ∈ ((tracedConfig []).outputs.limited true).paths := by decide
  have ha : Path.Plain "a.vcd" := ⟨by decide, by decide, by decide⟩
  have hb : Path.Plain "b.vcd" := ⟨by decide, by decide, by decide⟩
  have hpaths : ((tracedConfig []).outputs.limited true).paths = ["/out/waves.vcd"] := rfl
  obtain ⟨hplace, _, _, _, hkept⟩ :=
    tests_share_files_by_name (tracedConfig []) true [({ image := "/b.hex" }, 1)] tracedScene
      (t := { image := "/a.hex" }) hp ha (by
        intro x hx q hq
        obtain rfl := List.mem_singleton.mp hx
        rw [hpaths] at hq
        obtain rfl := List.mem_singleton.mp hq
        exact hb)
  have hout : (Path.forTest "/out/waves.vcd" (TestEntry.displayName { image := "/a.hex" })).place
      tracedScene.files.here = ["out", "a.vcd"] := by
    rw [hplace]
    decide +kernel
  rw [hout] at hkept
  refine ⟨⟨hp, ha, hb⟩, rfl, _, rfl, by decide +kernel, hkept _ rfl fun x hx q hq _ => ?_⟩
  obtain rfl := List.mem_singleton.mp hx
  rw [hpaths] at hq
  obtain rfl := List.mem_singleton.mp hq
  decide +kernel

/-- Images of one name in two folders. -/
def twins : Scene where
  files :=
    { root := .folder
        [("cyclebench.toml", .file (.text
          ("[run]\npass_addr = 0x10\nfail_addr = 0x14\n" ++
            "[trace]\nenabled = true\npath = \"out/waves.vcd\"\n" ++
            "[[test]]\nimage = \"a/t.hex\"\n[[test]]\nimage = \"b/t.hex\"")))] }

/-- Two tests of a configuration that is accepted record their traces in the same file. -/
theorem same_stems_share_trace :
    answer (loadConfig none) twins.files =
        .ok ("/cyclebench.toml", tracedConfig [{ image := "/a/t.hex" }, { image := "/b/t.hex" }]) ∧
      ∃ x y : TestEntry × Nat,
        x ∈ ({} : RegressArgs).select
          (tracedConfig [{ image := "/a/t.hex" }, { image := "/b/t.hex" }]).tests ∧
        y ∈ ({} : RegressArgs).select
          (tracedConfig [{ image := "/a/t.hex" }, { image := "/b/t.hex" }]).tests ∧
        x ≠ y ∧
        ∃ p ∈ (tracedConfig [{ image := "/a/t.hex" }, { image := "/b/t.hex" }]).outputs.paths,
          (p.forTest x.1.displayName).place twins.files.here =
            (p.forTest y.1.displayName).place twins.files.here := by
  refine ⟨eq_ok_of_toOption (by decide +kernel), ({ image := "/a/t.hex" }, 0),
    ({ image := "/b/t.hex" }, 1), by decide, by decide, by decide, "/out/waves.vcd", by decide, ?_⟩
  decide +kernel

end BusBench

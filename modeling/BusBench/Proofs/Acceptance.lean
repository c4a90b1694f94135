import BusBench.Proofs.CheckSoundness
import BusBench.Proofs.Preload

namespace BusBench

/-- What a run relies on in a configuration and in the settings that are made of it. -/
structure Config.Runnable (c : Config) (settings : Settings) : Prop where
  complete : c.settings = .ok settings
  sensible : settings.check = .ok ()
  starts : ∀ {σ τ κ : Type} (r : Rig σ τ κ) (device : σ) (pins : Pins) (trace : τ) (coverage : κ),
    r.settings = settings → r.start device pins c.emptyMemory trace coverage =
      .ok (.fresh device pins c.emptyMemory trace coverage)
  inverts : 0 < settings.schedule.halfPeriod
  apart : settings.sentinels.pass ≠ settings.sentinels.fail
  placed : ∀ (m : Memory) (text : String) (offset : Word),
    (m.loadImage text c.memory.offset).2 ≠ .error (.unalignedOffset offset)
  lanes : ∀ addr data strobe, BusOp.write addr data strobe ∈ c.script → strobe ≤ 0xf

/-- What arguments must not do to a configuration. -/
structure RunArgs.Suits (a : RunArgs) (c : Config) : Prop where
  timeout : a.timeout ≠ some 0
  halfPeriod : a.halfPeriod ≠ some 0
  offset : ∀ addr ∈ a.offset, addr.aligned = true
  timescale : a.waves.isSome → a.noWaves = false → trim c.trace.timescale.toList ≠ []
  sentinels : Differ (a.pass <|> c.run.passAddr) (a.fail <|> c.run.failAddr)
  tests : ∀ t ∈ c.tests, Differ (t.passAddr <|> a.pass <|> c.run.passAddr)
    (t.failAddr <|> a.fail <|> c.run.failAddr)

section

variable {c : Config} {a : RunArgs} {pass fail : Word}

theorem Memory.loadImage_placed {m : Memory} {offset : Word} (h : offset.aligned = true)
    (text : String) (o : Word) : (m.loadImage text offset).2 ≠ .error (.unalignedOffset o) := by
  have hoffset := (aligned_iff offset).mp h
  intro hload
  rcases m.loadImage_cases text offset with ⟨hnot, _⟩ | ⟨_, _, _, _, he⟩ |
    ⟨_, _, _, _, _, _, _, _, _, he⟩ | ⟨_, _, _, _, _, he, _⟩
  · exact hnot hoffset
  · rw [he] at hload
    cases hload
  · rw [he, misplaced] at hload
    split at hload <;> cases hload
  · rw [he] at hload
    cases hload

theorem Config.runnable (h : c.check = .ok ()) (hpass : c.run.passAddr = some pass)
    (hfail : c.run.failAddr = some fail) :
    c.Runnable ⟨⟨pass, fail⟩, c.run.timeout, ⟨c.run.halfPeriod, c.run.resetTicks⟩⟩ := by
  obtain ⟨hsettings, hset⟩ := Config.settings_of_check h hpass hfail
  obtain ⟨hne, hhalf, _⟩ := Settings.check_eq_ok_iff.mp hset
  obtain ⟨_, _, hsound, _⟩ := Config.check_eq_ok_iff.mp h
  refine ⟨hsettings, hset, fun r device pins trace coverage hr => ?_, hhalf, hne,
    fun m text offset => Memory.loadImage_placed hsound.offset text offset,
    fun addr data strobe hop => hsound.script _ hop⟩
  refine Rig.start_eq_ok_iff.mpr ⟨?_, hsound.range, rfl⟩
  rw [hr]
  exact hset

theorem Config.Sound.override (h : c.Sound) (ha : a.Suits c) : (c.override a).Sound where
  timeout := getD_ne_zero ha.timeout h.timeout
  halfPeriod := getD_ne_zero ha.halfPeriod h.halfPeriod
  range := h.range
  lo := h.lo
  hi := h.hi
  offset := holds_getD ha.offset h.offset
  timescale := by
    intro hon
    show trim c.trace.timescale.toList ≠ []
    obtain ⟨hwaves, hno⟩ : (c.trace.enabled = true ∨ a.waves.isSome = true) ∧ a.noWaves = false := by
      simpa [Config.override] using hon
    rcases hwaves with hon | hwaves
    · exact h.timescale hon
    · exact ha.timescale hwaves hno
  script := h.script
  tests := h.tests

theorem RunArgs.suits_of_check (h : (c.override a).check = .ok ()) : a.Suits c := by
  obtain ⟨_, hdiffer, hsound, htests⟩ := Config.check_eq_ok_iff.mp h
  refine ⟨?_, ?_, ?_, ?_, hdiffer, htests⟩
  · intro ht
    exact hsound.timeout (by simp [Config.override, ht])
  · intro ht
    exact hsound.halfPeriod (by simp [Config.override, ht])
  · intro addr ho
    simpa [Config.override, Option.mem_def.mp ho] using hsound.offset
  · intro hwaves hno
    exact hsound.timescale (by simp [Config.override, hwaves, hno])

/-- Arguments leave what was accepted acceptable exactly if they suit it. -/
theorem Config.check_override_iff (h : c.check = .ok ()) :
    (c.override a).check = .ok () ↔ a.Suits c := by
  refine ⟨RunArgs.suits_of_check, fun ha => ?_⟩
  obtain ⟨hknown, _, hsound, _⟩ := Config.check_eq_ok_iff.mp h
  refine Config.check_eq_ok_iff.mpr ⟨fun hnone => ?_, ha.sentinels, hsound.override ha, ha.tests⟩
  obtain ⟨hpass, hfail⟩ := hknown hnone
  -- an argument takes the place of a sentinel but never takes it away
  exact ⟨by simp [Config.override, hpass], by simp [Config.override, hfail]⟩

end

/-- An accepted configuration that has both common sentinels has all that a run relies on, also
after arguments took the place of some of it and the whole was accepted once more. -/
theorem Config.accepted_config_runs (c : Config) :
    (c.check = .ok () → ∀ pass fail, c.run.passAddr = some pass → c.run.failAddr = some fail →
      c.Runnable ⟨⟨pass, fail⟩, c.run.timeout, ⟨c.run.halfPeriod, c.run.resetTicks⟩⟩) ∧
    ∀ a : RunArgs, (c.override a).check = .ok () → ∀ pass fail,
      (a.pass <|> c.run.passAddr) = some pass → (a.fail <|> c.run.failAddr) = some fail →
      (c.override a).Runnable ⟨⟨pass, fail⟩, a.timeout.getD c.run.timeout,
        ⟨a.halfPeriod.getD c.run.halfPeriod, c.run.resetTicks⟩⟩ := by
  constructor
  · intro h pass fail hpass hfail
    exact Config.runnable h hpass hfail
  · intro a h pass fail hpass hfail
    exact Config.runnable (c := c.override a) h hpass hfail

/-- Arguments that move one sentinel, make the clock faster and ask for a trace. -/
def hurried : RunArgs where
  pass := some 0x20
  halfPeriod := some 3
  waves := some "w.vcd"

theorem one_read_accepted : oneReadConfig.check = .ok () := rfl

theorem hurried_suits : hurried.Suits oneReadConfig where
  timeout := nofun
  halfPeriod := nofun
  offset := nofun
  timescale := by
    intro _ _
    decide
  sentinels := by
    intro p hp f hf
    cases hp
    cases hf
    decide
  tests := nofun

theorem accepted_config_runs_of_one_read :
    oneReadConfig.check = .ok () ∧ (oneReadConfig.override hurried).check = .ok () ∧
      oneReadConfig.Runnable ⟨⟨0x10, 0x14⟩, 10000, ⟨10, 40⟩⟩ ∧
      (oneReadConfig.override hurried).Runnable ⟨⟨0x20, 0x14⟩, 10000, ⟨3, 40⟩⟩ := by
  have hchecked := (Config.check_override_iff one_read_accepted).mpr hurried_suits
  obtain ⟨hplain, hargs⟩ := Config.accepted_config_runs oneReadConfig
  exact ⟨one_read_accepted, hchecked, hplain one_read_accepted _ _ rfl rfl,
    hargs hurried hchecked _ _ rfl rfl⟩

/-- What a check of the configuration is there to prevent. -/
inductive CommandError.Late : CommandError → Prop
  | settings (e : SettingsError) : Late (.simulation (.settings e))
  | offset (addr : Word) : Late (.image (.unalignedOffset addr))

section

variable {c : Config}

theorem lift_meets {α : Type} {bad : CommandError → Scene → Prop} (x : StateM Scene α) :
    Meets (ExceptT.lift x : CommandM (StateM Scene) α) (fun _ => True) bad :=
  fun s => .inl ⟨(x s).1, (x s).2, rfl, trivial⟩

theorem attempt_meets {ε α : Type} {wrap : ε → CommandError} {r : Except ε α} {good : α → Prop}
    {bad : CommandError → Scene → Prop} (hok : ∀ x, r = .ok x → good x)
    (herror : ∀ e s, r = .error e → bad (wrap e) s) :
    Meets (attempt wrap r : CommandM (StateM Scene) α) good bad := by
  cases r with
  | ok x => exact .pure (hok x rfl)
  | error e => exact fun s => .inr ⟨wrap e, s, rfl, herror e s rfl⟩

/-- A computation that does not fail late. -/
def Timely {α : Type} (x : CommandM (StateM Scene) α) (good : α → Prop) : Prop :=
  Meets x good fun e _ => ¬ e.Late

theorem timely_readConfig (p : Path) :
    Timely (readConfig p : CommandM (StateM Scene) Config) fun _ => True := by
  refine Meets.bind (lift_meets _) fun _ _ => ?_
  refine Meets.bind (attempt_meets (fun _ _ => trivial) fun _ _ _ => nofun) fun _ _ => ?_
  exact Meets.bind (attempt_meets (fun _ _ => trivial) fun _ _ _ => nofun) fun _ _ => .pure trivial

theorem timely_loadConfig (given : Option String) :
    Timely (loadConfig given : CommandM (StateM Scene) (Path × Config)) fun _ => True := by
  have hpath : Timely (configPath given : CommandM (StateM Scene) Path) fun _ => True :=
    Meets.bind (lift_meets _) fun _ _ => Meets.bind (lift_meets _) fun isFolder _ => by
      cases isFolder <;> exact .pure trivial
  refine Meets.bind hpath fun p _ => Meets.bind (lift_meets _) fun found _ => ?_
  cases found with
  | true => exact Meets.bind (timely_readConfig p) fun _ _ => .pure trivial
  | false => exact fun s => .inr ⟨.noConfig p, s, rfl, nofun⟩

/-- No image is refused for an offset that was checked. -/
theorem timely_buildMemory (h : c.Sound) :
    Timely (buildMemory c : CommandM (StateM Scene) (Memory × Nat))
      fun (memory, _) => memory.lo ≤ memory.hi := by
  unfold buildMemory
  cases c.memory.image with
  | none => exact .pure h.range
  | some p =>
    refine Meets.bind (lift_meets _) fun _ _ => ?_
    refine Meets.bind (attempt_meets (fun _ _ => trivial) fun _ _ _ => nofun) fun text _ => ?_
    refine attempt_meets (fun (memory, _) hload => ?_) fun e _ hload hlate => ?_
    · obtain ⟨hlo, hhi, _⟩ := Memory.preload_like hload
      show memory.lo ≤ memory.hi
      rw [hlo, hhi]
      exact h.range
    · cases hlate with
      | offset addr =>
        refine Memory.loadImage_placed (m := c.emptyMemory) h.offset text addr ?_
        unfold Memory.preload at hload
        split at hload
        next => cases hload
        next hload' =>
          cases hload
          rw [hload']

theorem Outputs.Fails.not_late {o : Outputs} {files : FileTree} {e : CommandError}
    (h : o.Fails files e) : ¬ e.Late := by
  cases h <;> exact nofun

theorem Config.settings_check {settings : Settings} (h : c.check = .ok ())
    (hset : c.settings = .ok settings) : settings.check = .ok () := by
  unfold Config.settings at hset
  split at hset
  next => cases hset
  next => cases hset
  next pass fail hpass hfail =>
    cases hset
    exact (Config.runnable h hpass hfail).sensible

/-- Whatever it is given, a run is not refused for its settings or for the offset of its image once
its configuration has been accepted. -/
theorem runCommand_timely (quiet : Bool) (given : Option String) (args : RunArgs) :
    Timely (runCommand quiet given args : CommandM (StateM Scene) Nat)
      fun code => code = 0 ∨ code = 1 := by
  refine Meets.bind (timely_loadConfig given) fun (path, c) _ => ?_
  refine Meets.bind (attempt_meets (fun _ h => h) fun _ _ _ => nofun) fun _ hcheck => ?_
  obtain ⟨_, _, hsound, _⟩ := Config.check_eq_ok_iff.mp hcheck
  refine Meets.bind (timely_buildMemory hsound) fun (memory, words) hrange => ?_
  refine Meets.bind (attempt_meets (fun _ h => h) fun _ _ _ => nofun) fun settings hset s => ?_
  have hsensible := Config.settings_check hcheck hset
  rcases reported_run_meets hsensible hrange quiet args.json _ s with hok | ⟨e, t, h, hfails⟩
  · exact .inl hok
  · exact .inr ⟨e, t, h, hfails.not_late⟩

end

end BusBench

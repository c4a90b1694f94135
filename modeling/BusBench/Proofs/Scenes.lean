import BusBench.Proofs.ByteHistory
import BusBench.Proofs.Constraints
import BusBench.Session

namespace BusBench

theorem eq_ok_of_toOption {ε α : Type} {r : Except ε α} {a : α} (h : r.toOption = some a) :
    r = .ok a := by
  cases r with
  | error e => cases h
  | ok b => rw [Option.some.inj h]

section

variable {ε α β : Type} {x : ExceptT ε (StateM Scene) α} {f : α → ExceptT ε (StateM Scene) β}
  {s t : Scene} {a : α} {e : ε} {files : FileTree}

theorem run_bind_of_ok (h : x.run.run s = (.ok a, t)) : (x >>= f).run.run s = (f a).run.run t := by
  rw [ExceptT.run_bind, StateT.run_bind, h]
  rfl

theorem run_bind_of_error (h : x.run.run s = (.error e, t)) :
    (x >>= f).run.run s = (.error e, t) := by
  rw [ExceptT.run_bind, StateT.run_bind, h]
  rfl

/-- What a computation gives in a scene of these files that has no output yet. -/
def answer (x : ExceptT ε (StateM Scene) α) (files : FileTree) : Except ε α :=
  (x.run.run { files }).1

/-- A computation that depends on nothing but the files and changes nothing. -/
def Looks (x : ExceptT ε (StateM Scene) α) : Prop := ∀ s, x.run.run s = (answer x s.files, s)

theorem Looks.pure (a : α) : Looks (pure a : ExceptT ε (StateM Scene) α) := fun _ => rfl

theorem Looks.run_bind (hx : Looks x) (s : Scene) :
    (x >>= f).run.run s =
      match answer x s.files with
      | .ok a => (f a).run.run s
      | .error e => (.error e, s) := by
  have hs := hx s
  cases h : answer x s.files with
  | ok a => exact run_bind_of_ok (by rw [hs, h])
  | error e => exact run_bind_of_error (by rw [hs, h])

theorem Looks.of_bind_ok (hx : Looks x) {b : β} (h : (x >>= f).run.run s = (.ok b, t)) :
    ∃ a, answer x s.files = .ok a ∧ (f a).run.run s = (.ok b, t) := by
  rw [hx.run_bind] at h
  split at h
  next a ha => exact ⟨a, ha, h⟩
  next => cases h

theorem Looks.answer_bind (hx : Looks x) :
    answer (x >>= f) files = answer x files >>= fun a => answer (f a) files := by
  rw [answer, hx.run_bind]
  cases answer x files <;> rfl

theorem Looks.answer_bind_ok (hx : Looks x) {b : β} :
    answer (x >>= f) files = .ok b ↔ ∃ a, answer x files = .ok a ∧ answer (f a) files = .ok b := by
  rw [hx.answer_bind]
  cases answer x files with
  | ok a => simp [Bind.bind, Except.bind]
  | error e => simp [Bind.bind, Except.bind]

theorem Looks.bind (hx : Looks x) (hf : ∀ a, Looks (f a)) : Looks (x >>= f) := by
  intro s
  rw [hx.run_bind, hx.answer_bind]
  cases answer x s.files with
  | ok a => exact hf a s
  | error e => rfl

/-- A computation that writes lines and does nothing else. -/
def Talks (x : ExceptT ε (StateM Scene) α) : Prop :=
  ∀ s, ∃ a out err, x.run.run s = (.ok a, { s with out, err })

theorem Talks.pure (a : α) : Talks (pure a : ExceptT ε (StateM Scene) α) :=
  fun s => ⟨a, s.out, s.err, rfl⟩

theorem Talks.bind (hx : Talks x) (hf : ∀ a, Talks (f a)) : Talks (x >>= f) := by
  intro s
  obtain ⟨a, out, err, h⟩ := hx s
  obtain ⟨b, out, err, hb⟩ := hf a { s with out, err }
  exact ⟨b, out, err, (run_bind_of_ok h).trans hb⟩

/-- Ends as the postcondition for its result says, or fails as the one for errors says. -/
def Meets (x : ExceptT ε (StateM Scene) α) (good : α → Prop) (bad : ε → Scene → Prop) : Prop :=
  ∀ s, (∃ a t, x.run.run s = (.ok a, t) ∧ good a) ∨ ∃ e t, x.run.run s = (.error e, t) ∧ bad e t

variable {good : α → Prop} {fine : β → Prop} {bad : ε → Scene → Prop}

theorem Meets.pure (h : good a) : Meets (pure a) good bad := fun s => .inl ⟨a, s, rfl, h⟩

theorem Talks.meets (hx : Talks x) : Meets x (fun _ => True) bad := by
  intro s
  obtain ⟨a, out, err, h⟩ := hx s
  exact .inl ⟨a, _, h, trivial⟩

theorem Meets.bind (hx : Meets x good bad) (hf : ∀ a, good a → Meets (f a) fine bad) :
    Meets (x >>= f) fine bad := by
  intro s
  rcases hx s with ⟨a, t, h, ha⟩ | ⟨e, t, h, he⟩
  · rw [run_bind_of_ok h]
    exact hf a ha t
  · exact .inr ⟨e, t, run_bind_of_error h, he⟩

end

section

variable {α ε : Type} {files : FileTree} {c : Config} {path : Path}

theorem looks_attempt (wrap : ε → CommandError) (r : Except ε α) :
    Looks (attempt wrap r : CommandM (StateM Scene) α) := by
  intro s
  cases r <;> rfl

theorem answer_attempt (wrap : ε → CommandError) (r : Except ε α) :
    answer (attempt wrap r : CommandM (StateM Scene) α) files = r.mapError wrap := by
  cases r <;> rfl

theorem answer_attempt_ok {wrap : ε → CommandError} {r : Except ε α} {a : α} :
    answer (attempt wrap r : CommandM (StateM Scene) α) files = .ok a ↔ r = .ok a := by
  rw [answer_attempt]
  cases r <;> simp [Except.mapError]

theorem remark_run (quiet : Bool) (line : String) (s : Scene) :
    (remark quiet line : CommandM (StateM Scene) Unit).run.run s =
      (.ok (), { s with err := if quiet then s.err else s.err ++ line ++ "\n" }) := by
  cases quiet <;> rfl

theorem talks_say (line : String) :
    Talks (Workspace.say line : CommandM (StateM Scene) Unit) :=
  fun s => ⟨(), s.out ++ line ++ "\n", s.err, rfl⟩

theorem talks_warn (line : String) :
    Talks (Workspace.warn line : CommandM (StateM Scene) Unit) :=
  fun s => ⟨(), s.out, s.err ++ line ++ "\n", rfl⟩

theorem talks_remark (quiet : Bool) (line : String) :
    Talks (remark quiet line : CommandM (StateM Scene) Unit) :=
  fun s => ⟨(), s.out, _, remark_run quiet line s⟩

theorem looks_read (p : Path) :
    Looks (Workspace.read p : CommandM (StateM Scene) (Except Fault String)) := fun _ => rfl

/-- Reading the text of a file, or giving up with its fault. -/
theorem answer_text_ok {wrap : Fault → CommandError} {p : Path}
    {f : String → CommandM (StateM Scene) α} {a : α} :
    answer (do f (← attempt wrap (← Workspace.read p))) files = .ok a ↔
      ∃ text, files.read p = .ok text ∧ answer (f text) files = .ok a := by
  have hread : answer (Workspace.read p : CommandM (StateM Scene) (Except Fault String)) files =
    .ok (files.read p) := rfl
  simp only [(looks_read p).answer_bind_ok, hread, Except.ok.injEq, exists_eq_left',
    (looks_attempt wrap _).answer_bind_ok, answer_attempt_ok]

theorem looks_text (wrap : Fault → CommandError) (p : Path) {f : String → CommandM (StateM Scene) α}
    (hf : ∀ text, Looks (f text)) : Looks (do f (← attempt wrap (← Workspace.read p))) :=
  (looks_read p).bind fun r => (looks_attempt wrap r).bind hf

theorem looks_readConfig (p : Path) : Looks (readConfig p : CommandM (StateM Scene) Config) :=
  looks_text _ p fun _ => (looks_attempt _ _).bind fun _ => .pure _

theorem looks_configPath (given : Option String) :
    Looks (configPath given : CommandM (StateM Scene) Path) := by
  refine Looks.bind (fun _ => rfl) fun here => Looks.bind (fun _ => rfl) fun isFolder => ?_
  cases isFolder <;> exact .pure _

theorem looks_loadConfig (given : Option String) :
    Looks (loadConfig given : CommandM (StateM Scene) (Path × Config)) := by
  refine (looks_configPath given).bind fun p => Looks.bind (fun _ => rfl) fun found => ?_
  cases found with
  | true => exact (looks_readConfig p).bind fun _ => .pure _
  | false => exact fun _ => rfl

theorem looks_buildMemory (c : Config) :
    Looks (buildMemory c : CommandM (StateM Scene) (Memory × Nat)) := by
  unfold buildMemory
  cases c.memory.image with
  | none => exact .pure _
  | some p => exact looks_text _ p fun _ => looks_attempt _ _

theorem readConfig_ok (h : answer (readConfig path) files = .ok c) : c.check = .ok () := by
  obtain ⟨text, _, h⟩ := answer_text_ok.mp h
  obtain ⟨c₀, hc, h⟩ := (looks_attempt _ _).answer_bind_ok.mp h
  cases h
  obtain ⟨_, _, _, hcheck⟩ := Config.ofToml_eq_ok_iff.mp (answer_attempt_ok.mp hc)
  rw [Config.check_anchor, hcheck]

/-- A configuration that was loaded has been checked. -/
theorem loadConfig_ok {given : Option String}
    (h : answer (loadConfig given) files = .ok (path, c)) : c.check = .ok () := by
  obtain ⟨p, _, h⟩ := (looks_configPath given).answer_bind_ok.mp h
  obtain ⟨found, _, h⟩ := (Looks.answer_bind_ok fun _ => rfl).mp h
  cases found with
  | false => cases h
  | true =>
    obtain ⟨c₀, hc, h⟩ := (looks_readConfig p).answer_bind_ok.mp h
    cases h
    exact readConfig_ok hc

/-- Loading the image of a configuration leaves the range that it maps. -/
theorem buildMemory_like {memory : Memory} {words : Nat}
    (h : answer (buildMemory c) files = .ok (memory, words)) : c.emptyMemory.Like memory := by
  unfold buildMemory at h
  split at h
  next =>
    cases h
    exact ⟨rfl, rfl, rfl⟩
  next p _ =>
    obtain ⟨text, _, h⟩ := answer_text_ok.mp h
    exact Memory.preload_like (answer_attempt_ok.mp h)

end

end BusBench

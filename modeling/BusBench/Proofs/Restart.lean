import BusBench.Proofs.Bookkeeping

namespace BusBench

/-- Evaluations one after the other, before each of which the pins may be changed at will. -/
def Device.meddled {σ : Type} (d : Device σ) (x : σ × Pins) (past : List (Pins → Pins)) :
    σ × Pins :=
  past.foldl (fun x change => d.evaluate x.1 (change x.2)) x

/-- What is seen of requests: which are valid, with the levels that go with them. -/
def Requests.shown (r : Requests) : Option Word × Option Word × Option (Word × UInt8) :=
  (if r.readAddrValid then some r.readAddr else none,
    if r.writeAddrValid then some r.writeAddr else none,
    if r.writeDataValid then some (r.writeData, r.writeStrobe) else none)

/-- What is seen of the request of an op. -/
def BusOp.shown : BusOp → Option Word × Option Word × Option (Word × UInt8)
  | read addr _ => (some addr, none, none)
  | write addr data strobe => (none, some addr, some (data, strobe))
  | idle _ => (none, none, none)
  | finish => (none, none, none)

namespace Master

variable {m old : Master} {s : Sentinels} {p q : Pins} {x y : Master × Pins} {i : Inputs}

/-- The master with the records of an older one behind its own. -/
def recalling (m old : Master) : Master :=
  { m with
    completed := old.completed + m.completed
    mismatch := m.mismatch <|> old.mismatch
    finalized := old.finalized }

theorem unnoticed_recalling (old : Master) : Unnoticed (recalling · old) :=
  ⟨fun _ => rfl, fun _ => rfl, fun _ _ => rfl, fun _ => rfl, fun _ _ _ => rfl⟩

theorem next_recalling : (m.recalling old).next p = (m.next p).recalling old :=
  (unnoticed_recalling old).next

/-- Of the pins a rising edge looks only at what the bench drives. -/
theorem next_drive : m.next (p.drive i) = m.next (q.drive i) := rfl

theorem issue_shown : (m.issue p).requests.shown = m.asked.shown := by
  rw [issue_eq]
  cases m.asked <;> rfl

/-- The older records count where a master without a mismatch of its own reads its sentinel. -/
theorem asked_recalling : (m.recalling old).asked =
    if m.state = .sentinel ∧ m.mismatch = none ∧ old.mismatch ≠ none then
      .read m.sentinels.fail none
    else m.asked := by
  cases hstate : m.state with
  | sentinel =>
    have hasked : m.asked = .read m.sentinelAddr none := by rw [asked, hstate]
    have hrecalled : (m.recalling old).asked = .read (m.recalling old).sentinelAddr none := by
      rw [asked, show (m.recalling old).state = .sentinel from hstate]
    rw [hasked, hrecalled, sentinelAddr, sentinelAddr]
    cases hown : m.mismatch <;> cases hold : old.mismatch <;> simp [recalling, hown, hold]
  | reset => simp [asked, recalling, hstate]
  | op index waited => simp [asked, recalling, hstate]
  | finished => simp [asked, recalling, hstate]

theorem asked_of_passed (hstate : m.state = .sentinel) (hmis : m.mismatch = none) :
    m.asked = .read m.sentinels.pass none := by
  simp [asked, hstate, sentinelAddr, hmis]

theorem evaluate_script : (m.evaluate p).1.ops = m.ops ∧
    (m.evaluate p).1.sentinels = m.sentinels := by
  cases hr : p.reset with
  | true =>
    rw [evaluate_of_reset hr]
    exact ⟨rfl, rfl⟩
  | false =>
    cases hc : p.clock && !m.lastClock with
    | true =>
      obtain ⟨hops, hsent, _⟩ := (next_move (m := m) (p := p)).onward
      rw [evaluate_of_edge hr hc]
      exact ⟨hops, hsent⟩
    | false =>
      rw [evaluate_of_flat hr hc]
      exact ⟨rfl, rfl⟩

theorem meddled_script (past : List (Pins → Pins)) : (device.meddled x past).1.ops = x.1.ops ∧
    (device.meddled x past).1.sentinels = x.1.sentinels := by
  induction past generalizing x with
  | nil => exact ⟨rfl, rfl⟩
  | cons change past ih =>
    obtain ⟨hops, hsent⟩ := evaluate_script (m := x.1) (p := change x.2)
    obtain ⟨hops', hsent'⟩ := ih (x := device.evaluate x.1 (change x.2))
    exact ⟨hops'.trans hops, hsent'.trans hsent⟩

theorem turns_eq_meddled (inputs : List Inputs) :
    device.turns x inputs = device.meddled x (inputs.map fun i p => p.drive i) := by
  rw [Device.meddled, List.foldl_map]
  rfl

theorem turns_sentinels (inputs : List Inputs) :
    (device.turns x inputs).1.sentinels = x.1.sentinels := by
  rw [turns_eq_meddled]
  exact (meddled_script _).2

/-- Two masters in step, each with pins that ask for what it wants; one has older records. -/
structure Echoes (old : Master) (x y : Master × Pins) : Prop where
  master : x.1 = y.1.recalling old
  issued : x.1.issue x.2 = x.2
  echoed : y.1.issue y.2 = y.2

/-- A reset leaves nothing of a master but its records. -/
theorem echoes_of_reset (hreset : i.reset = true) (m : Master) (q : Pins) :
    Echoes m (device.turn (m, q) i) (device.turn (unplayed m.ops m.sentinels) i) := by
  rw [turn_of_reset hreset, turn_of_reset hreset]
  exact ⟨rfl, rfl, rfl⟩

/-- Under the same levels two masters stay in step. -/
theorem Echoes.turn (h : Echoes old x y) (i : Inputs) :
    Echoes old (device.turn x i) (device.turn y i) := by
  have hlast : x.1.lastClock = y.1.lastClock := by rw [h.master]; rfl
  have hissued : x.1.issue (x.2.drive i) = x.2.drive i := by rw [← issue_drive, h.issued]
  have hechoed : y.1.issue (y.2.drive i) = y.2.drive i := by rw [← issue_drive, h.echoed]
  cases hr : i.reset with
  | true =>
    rw [turn_of_reset hr, turn_of_reset hr, h.master]
    exact ⟨rfl, rfl, rfl⟩
  | false =>
    cases hc : i.clock && !y.1.lastClock with
    | true =>
      have hc' : (i.clock && !x.1.lastClock) = true := by rwa [hlast]
      rw [turn_of_edge hr hc', turn_of_edge hr hc]
      refine ⟨?_, issue_issue, issue_issue⟩
      rw [h.master, next_recalling, next_drive (q := y.2)]
      rfl
    | false =>
      have hc' : (i.clock && !x.1.lastClock) = false := by rwa [hlast]
      rw [turn_of_flat hr hc', turn_of_flat hr hc]
      refine ⟨?_, hissued, hechoed⟩
      rw [h.master]
      rfl

theorem Echoes.turns (h : Echoes old x y) (inputs : List Inputs) :
    Echoes old (device.turns x inputs) (device.turns y inputs) := by
  induction inputs generalizing x y with
  | nil => exact h
  | cons i inputs ih => exact ih (h.turn i)

/-- Nothing that is seen of two masters tells them apart. -/
structure Alike (x y : Master × Pins) : Prop where
  requests : x.2.requests.shown = y.2.requests.shown
  finished : x.1.finished = y.1.finished
  completed : x.1.completed = y.1.completed
  mismatch : x.1.mismatch = y.1.mismatch

/-- What is seen of a master that goes on after a reset, and of one that starts with it. -/
structure Resumes (s : Sentinels) (old : Master) (x y : Master × Pins) : Prop where
  finished : x.1.finished = y.1.finished
  completed : x.1.completed = old.completed + y.1.completed
  mismatch : x.1.mismatch = (y.1.mismatch <|> old.mismatch)
  requests : ¬ (y.1.state = .sentinel ∧ y.1.mismatch = none ∧ old.mismatch ≠ none) →
    x.2.requests.shown = y.2.requests.shown
  sentinel : y.1.state = .sentinel → y.1.mismatch = none → old.mismatch ≠ none →
    x.2.requests.shown = (some s.fail, none, none) ∧
      y.2.requests.shown = (some s.pass, none, none)

theorem Echoes.resumes (h : Echoes old x y) (hsent : y.1.sentinels = s) : Resumes s old x y := by
  have hx : x.2.requests.shown = (y.1.recalling old).asked.shown := by
    rw [← h.issued, issue_shown, h.master]
  have hy : y.2.requests.shown = y.1.asked.shown := by rw [← h.echoed, issue_shown]
  refine ⟨by rw [h.master]; rfl, by rw [h.master]; rfl, by rw [h.master]; rfl, ?_, ?_⟩
  · intro hplain
    rw [hx, hy, asked_recalling, if_neg hplain]
  · intro hstate hmis hold
    rw [hx, hy, asked_recalling, if_pos ⟨hstate, hmis, hold⟩, asked_of_passed hstate hmis, hsent]
    exact ⟨rfl, rfl⟩

theorem Resumes.alike (h : Resumes s old x y) (hcompleted : old.completed = 0)
    (hmis : old.mismatch = none) : Alike x y where
  requests := h.requests fun ⟨_, _, hne⟩ => hne hmis
  finished := h.finished
  completed := by rw [h.completed, hcompleted, Nat.zero_add]
  mismatch := by
    rw [h.mismatch, hmis]
    cases y.1.mismatch <;> rfl

/-- A reset takes a master back to the start of its script, whatever it has been through, but the
ops that it had completed still count and a mismatch that it had found is not forgotten: where it
should pass it fails. It is as good as new exactly if there was neither. -/
theorem reset_starts_over (ops : List BusOp) (s : Sentinels) (past : List (Pins → Pins))
    {i : Inputs} (hreset : i.reset = true) :
    ∃ old, device.meddled (unplayed ops s) past = old ∧
      (∀ later, Resumes s old.1 (device.turns old (i :: later))
        (device.turns (unplayed ops s) (i :: later))) ∧
      ((∀ later, Alike (device.turns old (i :: later))
          (device.turns (unplayed ops s) (i :: later))) ↔
        old.1.completed = 0 ∧ old.1.mismatch = none) := by
  obtain ⟨hops, hsent⟩ := meddled_script (x := unplayed ops s) past
  generalize device.meddled (unplayed ops s) past = old at hops hsent ⊢
  have hstart : Echoes old.1 (device.turn old i) (device.turn (unplayed ops s) i) := by
    have h := echoes_of_reset hreset old.1 old.2
    rwa [hops, hsent] at h
  have hresumes (later : List Inputs) : Resumes s old.1 (device.turns old (i :: later))
      (device.turns (unplayed ops s) (i :: later)) :=
    (hstart.turns later).resumes (turns_sentinels (i :: later))
  refine ⟨old, rfl, hresumes, ?_, fun ⟨hcompleted, hmis⟩ later =>
    (hresumes later).alike hcompleted hmis⟩
  -- the records differ as soon as reset is asserted, when the new master still has none
  intro halike
  have hcompleted := (halike []).completed
  have hmis := (halike []).mismatch
  have hnew : (device.turns (unplayed ops s) [i]).1.mismatch = none := by
    change (device.turn (unplayed ops s) i).1.mismatch = none
    rw [turn_of_reset hreset]
    rfl
  rw [(hresumes []).completed] at hcompleted
  rw [(hresumes []).mismatch, hnew] at hmis
  exact ⟨by omega, hmis⟩

def checkedOps : List BusOp := [.write 0x10 1 15, .read 0x10 (some 7)]

/-- Levels under which a script of a write and a read has its write answered, then a word. -/
def answering (word : Word) : List Inputs :=
  [{ clock := true }, {}, { clock := true, writeRespValid := true }, {},
    { clock := true, readDataValid := true, readData := word }]

/-- A wrong word, after which the pins are as the levels of the bench make them. -/
def misread : List (Pins → Pins) := (answering 8).map fun i p => p.drive i

theorem reset_starts_over_after_misread :
    ({ reset := true } : Inputs).reset = true ∧ ∃ old x y,
      device.meddled (unplayed checkedOps ⟨0xf0, 0xf4⟩) misread = old ∧
      device.turns old ({ reset := true } :: answering 7) = x ∧
      device.turns (unplayed checkedOps ⟨0xf0, 0xf4⟩) ({ reset := true } :: answering 7) = y ∧
      old.1.completed = 1 ∧ x.1.completed = 1 + 2 ∧
      x.1.mismatch = some ⟨1, 0x10, 7, 8⟩ ∧ x.1.finished = false ∧
      x.2.requests.shown = (some 0xf4, none, none) ∧
      y.2.requests.shown = (some 0xf0, none, none) := by
  obtain ⟨old, hold, hresumes, _⟩ := reset_starts_over checkedOps ⟨0xf0, 0xf4⟩ misread
    (i := { reset := true }) rfl
  have hnow := hresumes (answering 7)
  have hmis : old.1.mismatch = some ⟨1, 0x10, 7, 8⟩ := by rw [← hold]; decide
  have hone : old.1.completed = 1 := by rw [← hold]; decide
  obtain ⟨hfail, hpass⟩ := hnow.sentinel (by decide) (by decide) (by simp [hmis])
  refine ⟨rfl, old, _, _, hold, rfl, rfl, hone, ?_, ?_, ?_, hfail, hpass⟩
  · rw [hnow.completed, hone]
    rfl
  · rw [hnow.mismatch, hmis]
    rfl
  · rw [hnow.finished]
    rfl

/-- A master that has read a wrong word, is reset and reads the right words from then on still
asks for the fail address, and its books hold the ops and the mismatch from before. -/
theorem records_outlive_reset : ∃ x y,
    device.turns (device.meddled (unplayed checkedOps ⟨0xf0, 0xf4⟩) misread)
      ({ reset := true } :: answering 7) = x ∧
    device.turns (unplayed checkedOps ⟨0xf0, 0xf4⟩) ({ reset := true } :: answering 7) = y ∧
    ¬ Alike x y ∧
    x.2.requests.shown = (some 0xf4, none, none) ∧ y.2.requests.shown = (some 0xf0, none, none) ∧
    x.1.completed = 3 ∧ y.1.completed = 2 ∧
    x.1.mismatch = some ⟨1, 0x10, 7, 8⟩ ∧ y.1.mismatch = none := by
  refine ⟨_, _, rfl, rfl, fun h => ?_, by decide, by decide, by decide, by decide, by decide,
    by decide⟩
  exact absurd h.completed (by decide)

end Master

end BusBench

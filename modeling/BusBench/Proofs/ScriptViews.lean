import BusBench.Proofs.ClockLevel
import BusBench.Proofs.MasterEdges

namespace BusBench

/-- The pins with other levels on reset and clock. -/
def Pins.lines (p : Pins) (reset clock : Bool) : Pins := { p with reset, clock }

def Bus.lines (b : Bus) (reset clock : Bool) : Bus := { b with pins := b.pins.lines reset clock }

/-- The master with another memory of the clock. -/
def Master.saw (m : Master) (clock : Bool) : Master := { m with lastClock := clock }

namespace Bus

variable {b : Bus} {x y : Bool}

theorem lines_pins : (b.lines x y).pins = b.pins.lines x y := rfl

theorem serveRead_lines (t : Nat) : serveRead t (b.lines x y) = (serveRead t b).lines x y := by
  unfold serveRead
  by_cases h : b.pins.readAddrValid = true
  · have h' : (b.lines x y).pins.readAddrValid = true := h
    rw [if_pos h, if_pos h']
    rcases hload : b.memory.load b.pins.readAddr.align with e | data
    all_goals
      have hload' := hload
      change (b.lines x y).memory.load (b.lines x y).pins.readAddr.align = _ at hload'
      simp only [hload, hload']
      rfl
  · have h' : ¬ (b.lines x y).pins.readAddrValid = true := h
    rw [if_neg h, if_neg h']

theorem serveWrite_lines (t : Nat) : serveWrite t (b.lines x y) = (serveWrite t b).lines x y := by
  unfold serveWrite
  by_cases h : (b.pins.writeAddrValid && b.pins.writeDataValid) = true
  · have h' : ((b.lines x y).pins.writeAddrValid && (b.lines x y).pins.writeDataValid) = true := h
    rw [if_pos h, if_pos h']
    rcases hstore : mergeStore b.memory b.pins.writeAddr.align b.pins.writeData
      b.pins.writeStrobe with e | m
    all_goals
      have hstore' := hstore
      change mergeStore (b.lines x y).memory (b.lines x y).pins.writeAddr.align
        (b.lines x y).pins.writeData (b.lines x y).pins.writeStrobe = _ at hstore'
      simp only [hstore, hstore']
      rfl
  · have h' : ¬ ((b.lines x y).pins.writeAddrValid && (b.lines x y).pins.writeDataValid) = true := h
    rw [if_neg h, if_neg h']

/-- An edge without requests or responses leaves the bus alone. -/
theorem respond_of_idle (hreq : b.pins.clearRequests = b.pins)
    (hres : b.pins.clearResponses = b.pins) (t : Nat) : b.respond t = b := by
  have hread : b.pins.readAddrValid = false := by rw [← hreq]; rfl
  have hwrite : b.pins.writeAddrValid = false := by rw [← hreq]; rfl
  simp [respond, serveRead, serveWrite, hres, hread, hwrite]

theorem respond_lines (t : Nat) : respond t (b.lines x y) = (respond t b).lines x y := by
  have h := serveRead_lines (b := { b with pins := b.pins.clearResponses }) (x := x) (y := y) t
  unfold respond
  rw [← serveWrite_lines, ← h]
  rfl

end Bus

namespace Master

variable {m : Master} {p : Pins} {x y : Bool}

/-- A change of a master that its script takes no notice of. -/
structure Unnoticed (f : Master → Master) : Prop where
  ops (m : Master) : (f m).ops = m.ops
  state (m : Master) : (f m).state = m.state
  turn (m : Master) (s : MasterState) : f { m with state := s } = { f m with state := s }
  count (m : Master) :
    f { m with completed := m.completed + 1 } = { f m with completed := (f m).completed + 1 }
  fail (m : Master) (found : Mismatch) (s : MasterState) :
    f { m with mismatch := some found, state := s } =
      { f m with mismatch := some found, state := s }

section

variable {f : Master → Master}

theorem Unnoticed.settle (h : Unnoticed f) (i : Nat) (ops : List BusOp) :
    (f m).settle i ops = f (m.settle i ops) := by
  induction ops generalizing m i with
  | nil => exact (h.turn m .sentinel).symm
  | cons op ops ih =>
    have hstay : ({ f m with state := .op i 0 } : Master) = f { m with state := .op i 0 } :=
      (h.turn m (.op i 0)).symm
    cases op with
    | idle cycles =>
      simp only [Master.settle]
      split
      next =>
        rw [← h.count]
        exact ih (i + 1)
      next => exact hstay
    | read addr expect => exact hstay
    | write addr data strobe => exact hstay
    | finish => exact (h.turn m .finished).symm

theorem Unnoticed.advance (h : Unnoticed f) (i : Nat) : (f m).advance i = f (m.advance i) := by
  change ({ f m with completed := (f m).completed + 1 } : Master).settle (i + 1)
    ((f m).ops.drop (i + 1)) = _
  rw [← h.count, h.ops]
  exact h.settle (i + 1) (m.ops.drop (i + 1))

theorem Unnoticed.complete (h : Unnoticed f) (i w : Nat) (op : BusOp) :
    (f m).complete p i w op = f (m.complete p i w op) := by
  cases op with
  | read addr expect =>
    simp only [Master.complete]
    cases expect with
    | none => split <;> simp only [h.advance]
    | some e =>
      split
      next =>
        simp only
        split
        next => exact h.advance i
        next => exact (h.fail m _ .sentinel).symm
      next => rfl
  | write addr data strobe =>
    simp only [Master.complete]
    split
    next => exact h.advance i
    next => rfl
  | idle cycles =>
    simp only [Master.complete]
    split
    next => exact h.advance i
    next => exact (h.turn m (.op i (w + 1))).symm
  | finish => exact (h.turn m .finished).symm

theorem Unnoticed.next (h : Unnoticed f) : (f m).next p = f (m.next p) := by
  unfold Master.next
  rw [h.state, h.ops]
  cases m.state with
  | reset =>
    rw [enter, h.ops]
    exact h.settle 0 (m.ops.drop 0)
  | op i w =>
    simp only
    cases m.ops[i]? with
    | none => rfl
    | some op => exact h.complete i w op
  | sentinel => rfl
  | finished => rfl

end

theorem unnoticed_saw : Unnoticed (saw · x) :=
  ⟨fun _ => rfl, fun _ => rfl, fun _ _ => rfl, fun _ => rfl, fun _ _ _ => rfl⟩

theorem next_saw : (m.saw x).next p = (m.next p).saw x := unnoticed_saw.next

theorem next_lines : m.next (p.lines x y) = m.next p := rfl

theorem issue_lines : m.issue (p.lines x y) = (m.issue p).lines x y := by
  unfold issue
  cases m.state with
  | op i w =>
    simp only
    cases m.ops[i]? with
    | none => rfl
    | some op => cases op <;> rfl
  | reset => rfl
  | sentinel => rfl
  | finished => rfl

theorem evaluate_lastClock : (m.evaluate p).1.lastClock = p.clock := by
  unfold evaluate
  by_cases hr : p.reset = true
  · simp [hr]
  · by_cases hc : (p.clock && !m.lastClock) = true
    · simp only [hr, hc, if_true]
      change ((m.saw p.clock).next p).lastClock = p.clock
      rw [next_saw]
      rfl
    · simp [hr, hc]

theorem evaluate_of_reset (hr : p.reset = true) :
    m.evaluate p = ({ m with state := .reset, lastClock := p.clock }, p.clearRequests) := by
  simp [evaluate, hr]

theorem evaluate_of_flat (hr : p.reset = false) (hc : (p.clock && !m.lastClock) = false) :
    m.evaluate p = (m.saw p.clock, p) := by
  simp only [evaluate, hr, hc]
  rfl

theorem evaluate_of_edge (hr : p.reset = false) (hc : (p.clock && !m.lastClock) = true) :
    m.evaluate p = ((m.next p).saw p.clock, (m.next p).issue p) := by
  simp only [evaluate, hr, hc, if_true]
  change ((m.saw p.clock).next p, ((m.saw p.clock).next p).issue p) = _
  rw [next_saw]
  rfl

end Master

/-- The master is held in reset on an idle bus. -/
structure View.Held (v : View) : Prop where
  state : v.device.state = .reset
  requests : v.bus.pins.clearRequests = v.bus.pins
  responses : v.bus.pins.clearResponses = v.bus.pins
  verdict : v.verdict = none

/-- An edge does not look at the levels. -/
theorem View.edge_lines {m : Master} {bus : Bus} {v : Option Verdict} {x y z : Bool} {s : Sentinels}
    {t : Nat} : View.edge s t ⟨m.saw z, bus.lines x y, v⟩ =
      ⟨(m.next (bus.respond t).pins).saw z,
        Bus.lines { bus.respond t with
          pins := (m.next (bus.respond t).pins).issue (bus.respond t).pins } x y,
        s.latch (bus.respond t).pins v⟩ := by
  have hnext : (m.saw z).next ((bus.respond t).pins.lines x y) =
    (m.next (bus.respond t).pins).saw z := Master.next_saw
  have hissue : ((m.next (bus.respond t).pins).saw z).issue ((bus.respond t).pins.lines x y) =
    ((m.next (bus.respond t).pins).issue (bus.respond t).pins).lines x y := Master.issue_lines
  simp only [edge, Bus.respond_lines, Bus.lines_pins, hnext, hissue]
  rfl

namespace Bench

variable {τ κ : Type}

/-- A bench but for its levels, its sinks and its time. -/
def view (b : Bench Master τ κ) : View := ⟨b.device.saw false, b.bus.lines false false, b.verdict⟩

end Bench

namespace Rig

variable {τ κ : Type} {r : Rig Master τ κ} {b : Bench Master τ κ}

theorem drive_bus {σ : Type} {r : Rig σ τ κ} {b : Bench σ τ κ} :
    (r.drive b).bus = b.bus.lines (r.settings.schedule.resetAt b.tick) (r.drive b).clock := rfl

theorem after_lastClock (hdev : r.device = Master.device) (hc : b.device.lastClock = b.clock)
    (n : Nat) : (r.after b n).device.lastClock = (r.after b n).clock := by
  cases n with
  | zero => exact hc
  | succ n =>
    change (r.clockTick (r.after b n)).device.lastClock = (r.clockTick (r.after b n)).clock
    rw [clockTick_device, hdev]
    change (Master.evaluate _ _).1.lastClock = _
    rw [Master.evaluate_lastClock, served_eq, drive_bus, clockTick_clock]
    split
    next => rw [Bus.respond_lines]; rfl
    next => rfl

/-- The master takes a tick for a rising edge where the schedule has one. -/
theorem after_edge (hdev : r.device = Master.device) (ht : b.tick = 0) (hc : b.clock = false)
    (hl : b.device.lastClock = false) (n : Nat) :
    ((r.drive (r.after b n)).clock && !(r.after b n).device.lastClock) =
      r.settings.schedule.risesAt n := by
  have hnow := after_clock (r := r) ht hc (n + 1)
  have hnext : (r.after b (n + 1)).clock = (r.drive (r.after b n)).clock :=
    clockTick_clock (r := r) (b := r.after b n)
  rw [hnext] at hnow
  rw [after_lastClock hdev (hl.trans hc.symm), Bool.eq_iff_iff, Schedule.risesAt_iff_high, ← hnow,
    ← after_clock (r := r) ht hc n]
  simp [and_comm]

theorem served_pins : (r.served b).pins.reset = r.settings.schedule.resetAt b.tick ∧
    (r.served b).pins.clock = (r.drive b).clock := by
  rw [served_eq, drive_bus, Bus.respond_lines]
  split <;> exact ⟨rfl, rfl⟩

theorem view_flat (hdev : r.device = Master.device) (hreset : r.settings.schedule.resetAt b.tick = false)
    (hrise : r.settings.schedule.risesAt b.tick = false)
    (hedge : ((r.drive b).clock && !b.device.lastClock) = r.settings.schedule.risesAt b.tick) :
    (r.clockTick b).view = b.view := by
  obtain ⟨hr, hc⟩ := served_pins (r := r) (b := b)
  have hserved : r.served b = b.bus.lines false (r.drive b).clock := by
    rw [served_eq, hrise, drive_bus, hreset]
    rfl
  have heval := Master.evaluate_of_flat (m := b.device) (hr.trans hreset)
    (by rw [hc, hedge, hrise])
  rw [hserved] at heval
  rw [Bench.view, clockTick_device, clockTick_bus, clockTick_verdict, hdev, hrise]
  simp only [Master.device, hserved, heval]
  rfl

theorem view_edge (hdev : r.device = Master.device) (hreset : r.settings.schedule.resetAt b.tick = false)
    (hrise : r.settings.schedule.risesAt b.tick = true)
    (hedge : ((r.drive b).clock && !b.device.lastClock) = r.settings.schedule.risesAt b.tick) :
    (r.clockTick b).view = b.view.edge r.settings.sentinels b.tick := by
  obtain ⟨hr, hc⟩ := served_pins (r := r) (b := b)
  have hserved : r.served b = (b.bus.respond b.tick).lines false (r.drive b).clock := by
    rw [served_eq, hrise, drive_bus, hreset, Bus.respond_lines]
    rfl
  have heval := Master.evaluate_of_edge (m := b.device) (hr.trans hreset)
    (by rw [hc, hedge, hrise])
  rw [hserved, Bus.lines_pins, Master.next_lines, Master.issue_lines] at heval
  rw [Bench.view, clockTick_device, clockTick_bus, clockTick_verdict, hdev, hrise, Bench.view,
    View.edge_lines]
  simp only [Master.device, hserved, Bus.lines_pins, heval, if_true]
  rfl

theorem view_held (hdev : r.device = Master.device) (hreset : r.settings.schedule.resetAt b.tick = true)
    (h : b.view.Held) : (r.clockTick b).view = b.view := by
  obtain ⟨hr, hc⟩ := served_pins (r := r) (b := b)
  have hidle : (b.bus.respond b.tick).lines false false = b.bus.lines false false := by
    rw [← Bus.respond_lines]
    exact Bus.respond_of_idle h.requests h.responses b.tick
  have hserved : r.served b = b.bus.lines true (r.drive b).clock := by
    rw [served_eq, drive_bus, hreset, Bus.respond_lines]
    split
    next => exact congrArg (·.lines true (r.drive b).clock) hidle
    next => rfl
  have heval := Master.evaluate_of_reset (m := b.device) (hr.trans hreset)
  rw [hserved, Bus.lines_pins] at heval
  have hverdict : (if r.settings.schedule.risesAt b.tick then
      r.settings.sentinels.latch (b.bus.pins.lines true (r.drive b).clock) b.verdict
      else b.verdict) = b.verdict := by
    have hread : b.bus.pins.readAddrValid = false := congrArg Pins.readAddrValid h.requests.symm
    have hsees : r.settings.sentinels.sees (b.bus.pins.lines true (r.drive b).clock) = none :=
      View.sees_none hread
    have hnone : b.verdict = none := h.verdict
    simp [Sentinels.latch, hsees, hnone]
  -- the master is in reset already, and its pins ask for nothing
  have hdevice : ({ b.device with state := .reset } : Master) = b.device := by
    have hstate : b.device.state = .reset := h.state
    rw [← hstate]
  have hpins : (b.bus.pins.clearRequests).lines false false = b.bus.pins.lines false false :=
    h.requests
  rw [Bench.view, clockTick_device, clockTick_bus, clockTick_verdict, hdev]
  simp only [Master.device, hserved, Bus.lines_pins, heval, hverdict]
  change (⟨({ b.device with state := .reset } : Master).saw false,
    ⟨b.bus.pins.clearRequests.lines false false, b.bus.memory, b.bus.stats⟩, b.verdict⟩ : View) = _
  rw [hdevice, hpins]
  rfl

end Rig

end BusBench

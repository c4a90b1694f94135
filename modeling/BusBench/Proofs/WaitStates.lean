import BusBench.Proofs.ScriptViews
import BusBench.Proofs.Transactions

namespace BusBench

namespace Device

variable {σ : Type} (d : Device σ)

/-- One evaluation under given levels. -/
def turn (x : σ × Pins) (i : Inputs) : σ × Pins := d.evaluate x.1 (x.2.drive i)

/-- Evaluations one after the other. -/
def turns (x : σ × Pins) (inputs : List Inputs) : σ × Pins := inputs.foldl d.turn x

/-- What the bus takes from a device on the way. -/
def exchange (x : σ × Pins) : List Inputs → List Transaction
  | [] => []
  | i :: inputs => (x.2.drive i).taken x.2.clock ++ exchange (d.turn x i) inputs

end Device

/-- Reset may be held at first, but once it is released it is not asserted again. -/
def Inputs.ReleasedForGood (inputs : List Inputs) : Prop :=
  inputs.Pairwise fun i j => j.reset = true → i.reset = true

namespace Master

variable {x : Master × Pins} {i : Inputs} {inputs : List Inputs} {reply : Nat → Word} {reads : Nat}

theorem turn_of_reset (hr : i.reset = true) : device.turn x i =
    ({ x.1 with state := .reset, lastClock := i.clock }, (x.2.drive i).clearRequests) :=
  evaluate_of_reset hr

theorem turn_of_flat (hr : i.reset = false) (hc : (i.clock && !x.1.lastClock) = false) :
    device.turn x i = (x.1.saw i.clock, x.2.drive i) := evaluate_of_flat hr hc

theorem turn_of_edge (hr : i.reset = false) (hc : (i.clock && !x.1.lastClock) = true) :
    device.turn x i = ((x.1.next (x.2.drive i)).saw i.clock,
      (x.1.next (x.2.drive i)).issue (x.2.drive i)) := evaluate_of_edge hr hc

/-- A master with pins that ask for what it wants. -/
structure Seated (x : Master × Pins) : Prop where
  issued : ∃ p, x.2 = x.1.issue p
  lastClock : x.1.lastClock = x.2.clock
  mismatch : x.1.mismatch ≠ none → x.1.state = .sentinel

theorem Seated.driven (h : Seated x) (i : Inputs) : ∃ p, x.2.drive i = x.1.issue p := by
  obtain ⟨p, hp⟩ := h.issued
  exact ⟨p.drive i, by rw [hp, issue_drive]⟩

theorem Seated.taken (h : Seated x) (i : Inputs) :
    (x.2.drive i).taken x.2.clock =
      if i.clock && !x.2.clock then takes (x.2.drive i) x.1.asked else [] := by
  obtain ⟨p, hp⟩ := h.driven i
  rw [issue_taken hp]
  rfl

/-- All that an evaluation can do. -/
theorem Seated.turn_cases (h : Seated x) (i : Inputs) (hreset : i.reset = true → x.1.state = .reset) :
    (x.2.drive i).taken x.2.clock = [] ∧ (device.turn x i).1 = x.1.saw i.clock ∧
        (device.turn x i).2 = x.2.drive i ∨
      i.reset = false ∧ (x.2.drive i).taken x.2.clock = takes (x.2.drive i) x.1.asked ∧
        (device.turn x i).1 = (x.1.next (x.2.drive i)).saw i.clock ∧
        (device.turn x i).2 = (x.1.next (x.2.drive i)).issue (x.2.drive i) := by
  obtain ⟨p, hp⟩ := h.driven i
  rw [h.taken]
  cases hr : i.reset with
  | true =>
    -- the master has not left reset yet, so it asks for nothing
    have hstate := hreset hr
    have hasked : x.1.asked = .finish := by rw [asked, hstate]
    have hclear : (x.2.drive i).clearRequests = x.2.drive i := by
      rw [hp, issue_eq, hasked]
      rfl
    refine .inl ⟨by rw [hasked]; exact ite_self _, ?_, ?_⟩
    · rw [turn_of_reset hr, ← hstate]
      rfl
    · rw [turn_of_reset hr]
      exact hclear
  | false =>
    by_cases hc : (i.clock && !x.2.clock) = true
    · have hedge : (i.clock && !x.1.lastClock) = true := by rwa [h.lastClock]
      rw [turn_of_edge hr hedge, if_pos hc]
      exact .inr ⟨rfl, rfl, rfl, rfl⟩
    · have hflat : (i.clock && !x.1.lastClock) = false := by
        rw [h.lastClock]
        exact eq_false_of_ne_true hc
      rw [turn_of_flat hr hflat, if_neg hc]
      exact .inl ⟨rfl, rfl, rfl⟩

theorem Seated.turn (h : Seated x) (i : Inputs) (hreset : i.reset = true → x.1.state = .reset) :
    Seated (device.turn x i) ∧ (i.reset = true → (device.turn x i).1.state = .reset) := by
  rcases h.turn_cases i hreset with ⟨_, hmaster, hpins⟩ | ⟨hr, _, hmaster, hpins⟩
  · refine ⟨⟨?_, ?_, ?_⟩, ?_⟩
    · rw [hmaster, hpins]
      exact h.driven i
    · rw [hmaster, hpins]
      rfl
    · rw [hmaster]
      exact h.mismatch
    · rw [hmaster]
      exact hreset
  · refine ⟨⟨?_, ?_, ?_⟩, ?_⟩
    · rw [hmaster, hpins]
      exact ⟨_, rfl⟩
    · rw [hmaster, hpins, issue_clock]
      rfl
    · rw [hmaster]
      exact next_mismatch h.mismatch
    · rw [hr]
      exact fun hf => absurd hf Bool.false_ne_true

theorem Seated.turn_left (h : Seated x) (hreset : i.reset = true → x.1.state = .reset)
    (hans : Transaction.Answered reply reads ((x.2.drive i).taken x.2.clock)) :
    x.1.left reply reads = Transaction.ahead ((x.2.drive i).taken x.2.clock)
      ((device.turn x i).1.left reply (reads +
        (((x.2.drive i).taken x.2.clock).filterMap Transaction.returned).length)) := by
  rcases h.turn_cases i hreset with ⟨hnone, hmaster, _⟩ | ⟨_, htaken, hmaster, _⟩
  · rw [hnone, hmaster]
    rfl
  · rw [htaken] at hans ⊢
    rw [hmaster]
    exact next_left h.mismatch hans

theorem Seated.turn_requests (h : Seated x) (hreset : i.reset = true → x.1.state = .reset)
    (hpending : x.2.requests.pending = true) (hnone : (x.2.drive i).taken x.2.clock = []) :
    (device.turn x i).2.requests = x.2.requests := by
  rcases h.turn_cases i hreset with ⟨_, _, hpins⟩ | ⟨_, htaken, _, hpins⟩
  · rw [hpins, Pins.requests_drive]
  · obtain ⟨p, hp⟩ := h.driven i
    have hasks : (x.1.issue p).requests.pending = true := by
      rw [← hp]
      exact hpending
    rw [hpins, next_of_untaken hasks (htaken.symm.trans hnone), hp, issue_issue, ← hp,
      Pins.requests_drive]

theorem Seated.turns (h : Seated x) (hfree : Inputs.ReleasedForGood inputs)
    (hreset : ∀ i ∈ inputs, i.reset = true → x.1.state = .reset) {past rest : List Inputs}
    (hinputs : inputs = past ++ rest) :
    Seated (device.turns x past) ∧
      ∀ i ∈ rest, i.reset = true → (device.turns x past).1.state = .reset := by
  induction past generalizing x inputs with
  | nil =>
    subst hinputs
    exact ⟨h, hreset⟩
  | cons i past ih =>
    subst hinputs
    obtain ⟨hlater, hrest⟩ := List.pairwise_cons.mp hfree
    obtain ⟨hturn, hstay⟩ := h.turn i (hreset i (List.mem_cons_self ..))
    exact ih hturn hrest (fun j hj hr => hstay (hlater j hj hr)) rfl

/-- What is taken comes first in the course, and what is left of it comes next. -/
theorem Seated.exchange_left (h : Seated x) (hfree : Inputs.ReleasedForGood inputs)
    (hreset : ∀ i ∈ inputs, i.reset = true → x.1.state = .reset)
    (hans : Transaction.Answered reply reads (device.exchange x inputs)) :
    ∃ rest, x.1.left reply reads = Transaction.ahead (device.exchange x inputs) rest := by
  induction inputs generalizing x reads with
  | nil => exact ⟨_, rfl⟩
  | cons i inputs ih =>
    obtain ⟨hlater, hrest⟩ := List.pairwise_cons.mp hfree
    have hfirst := hreset i (List.mem_cons_self ..)
    obtain ⟨hturn, hstay⟩ := h.turn i hfirst
    obtain ⟨rest, hleft⟩ := ih hturn hrest (fun j hj hr => hstay (hlater j hj hr)) hans.right
    refine ⟨rest, ?_⟩
    rw [h.turn_left hfirst hans.left, hleft, ← Transaction.ahead_append]
    rfl

theorem Seated.waits (h : Seated x) (hfree : Inputs.ReleasedForGood inputs)
    (hreset : ∀ i ∈ inputs, i.reset = true → x.1.state = .reset)
    (hpending : x.2.requests.pending = true)
    (hnone : device.exchange x inputs = []) :
    (device.turns x inputs).2.requests = x.2.requests := by
  induction inputs generalizing x with
  | nil => rfl
  | cons i inputs ih =>
    obtain ⟨hlater, hrest⟩ := List.pairwise_cons.mp hfree
    obtain ⟨hnow, hthen⟩ := List.append_eq_nil_iff.mp hnone
    have hfirst := hreset i (List.mem_cons_self ..)
    obtain ⟨hturn, hstay⟩ := h.turn i hfirst
    have hsame := h.turn_requests hfirst hpending hnow
    rw [← hsame] at hpending ⊢
    exact ih hturn hrest (fun j hj hr => hstay (hlater j hj hr)) hpending hthen

/-- A master that has not been evaluated, on a bus at rest. -/
def unplayed (ops : List BusOp) (s : Sentinels) : Master × Pins := ({ ops, sentinels := s }, {})

theorem seated_unplayed (ops : List BusOp) (s : Sentinels) : Seated (unplayed ops s) :=
  ⟨⟨{}, rfl⟩, rfl, fun h => absurd rfl h⟩

/-- Whatever levels a master is driven with, and however late, early or often responses come, the
bus takes the transactions of its script in order; a request stays as it is until it is taken,
and a read and a write are never asked for together. -/
theorem takes_script_in_order (ops : List BusOp) (s : Sentinels) {inputs : List Inputs}
    (hfree : Inputs.ReleasedForGood inputs) :
    (∀ reply, Transaction.Answered reply 0 (device.exchange (unplayed ops s) inputs) →
      ∀ n t, (device.exchange (unplayed ops s) inputs)[n]? = some t →
        BusOp.course s reply 0 ops n = some t) ∧
    (∀ past waits, past ++ waits <+: inputs →
      (device.turns (unplayed ops s) past).2.requests.pending = true →
      device.exchange (device.turns (unplayed ops s) past) waits = [] →
      (device.turns (unplayed ops s) (past ++ waits)).2.requests =
        (device.turns (unplayed ops s) past).2.requests) ∧
    ∀ past, past <+: inputs →
      ¬ ((device.turns (unplayed ops s) past).2.readAddrValid = true ∧
        ((device.turns (unplayed ops s) past).2.writeAddrValid = true ∨
          (device.turns (unplayed ops s) past).2.writeDataValid = true)) := by
  have hseated := seated_unplayed ops s
  have hreset : ∀ i ∈ inputs, i.reset = true → (unplayed ops s).1.state = .reset :=
    fun _ _ _ => rfl
  refine ⟨?_, ?_, ?_⟩
  · intro reply hans n t hn
    obtain ⟨rest, hcourse⟩ := hseated.exchange_left hfree hreset hans
    have hleft : (unplayed ops s).1.left reply 0 = BusOp.course s reply 0 ops := left_of_reset rfl
    rw [← hleft, hcourse]
    exact Transaction.ahead_getElem? hn
  · rintro past waits ⟨rest, hinputs⟩ hpending hnone
    rw [List.append_assoc] at hinputs
    obtain ⟨hnow, hlater⟩ := hseated.turns hfree hreset hinputs.symm
    have hwaits : Inputs.ReleasedForGood waits := by
      rw [← hinputs] at hfree
      exact hfree.sublist ((List.sublist_append_left waits rest).trans
        (List.sublist_append_right past (waits ++ rest)))
    have hturns : device.turns (unplayed ops s) (past ++ waits) =
        device.turns (device.turns (unplayed ops s) past) waits := List.foldl_append
    rw [hturns]
    exact hnow.waits hwaits (fun i hi => hlater i (List.mem_append_left rest hi)) hpending hnone
  · rintro past ⟨rest, hinputs⟩
    obtain ⟨p, hp⟩ := (hseated.turns hfree hreset hinputs.symm).1.issued
    rw [hp]
    exact issue_one_request

/-- Levels with a reset, with responses that nobody waits for, and with late ones. -/
def stalled : List Inputs :=
  [{ reset := true, clock := true, writeRespValid := true }, {}, { clock := true }, {},
    { clock := true, readDataValid := true }, { writeRespValid := true },
    { clock := true, writeRespValid := true }, {},
    { clock := true, readDataValid := true, readData := 7 }, {}, { clock := true }, {},
    { clock := true, readDataValid := true, readData := 9 }, {},
    { clock := true, readDataValid := true, readData := 3 }]

def stalledOps : List BusOp :=
  [.write 0x10 0xaabbccdd 5, .idle 1, .read 0x10 (some 7), .finish]

theorem takes_script_in_order_when_stalled :
    Inputs.ReleasedForGood stalled ∧
      device.exchange (unplayed stalledOps ⟨0xff0, 0xff4⟩) stalled =
        [.write 0x10 0xaabbccdd 5, .read 0x10 9, .read 0xff4 3] ∧
      BusOp.course ⟨0xff0, 0xff4⟩ ([9, 3].getD · 0) 0 stalledOps 2 = some (.read 0xff4 3) ∧
      (device.turns (unplayed stalledOps ⟨0xff0, 0xff4⟩) (stalled.take 3 ++
          (stalled.drop 3).take 3)).2.requests = ⟨false, 0, true, 0x10, true, 0xaabbccdd, 5⟩ := by
  have hfree : Inputs.ReleasedForGood stalled := by
    unfold Inputs.ReleasedForGood
    decide
  have htaken : device.exchange (unplayed stalledOps ⟨0xff0, 0xff4⟩) stalled =
    [.write 0x10 0xaabbccdd 5, .read 0x10 9, .read 0xff4 3] := by decide
  obtain ⟨hcourse, hwaits, _⟩ := takes_script_in_order stalledOps ⟨0xff0, 0xff4⟩ hfree
  have hans : Transaction.Answered ([9, 3].getD · 0) 0
      (device.exchange (unplayed stalledOps ⟨0xff0, 0xff4⟩) stalled) := by
    intro k w hk
    have hwords : (device.exchange (unplayed stalledOps ⟨0xff0, 0xff4⟩) stalled).filterMap
        Transaction.returned = [9, 3] := by rw [htaken]; rfl
    rw [hwords] at hk
    simp only [Nat.zero_add, List.getD_eq_getElem?_getD, hk, Option.getD_some]
  refine ⟨hfree, htaken, ?_, ?_⟩
  · apply hcourse _ hans
    rw [htaken]
    rfl
  · rw [hwaits _ _ (by decide) (by decide) (by decide)]
    decide

end Master

end BusBench

import BusBench.Proofs.WaitStates

namespace BusBench

/-- Whether the clock rises with reset released, after a level of the clock. -/
def Inputs.starts (last : Bool) : List Inputs → Bool
  | [] => false
  | i :: rest => (!i.reset && i.clock && !last) || starts i.clock rest

theorem BusOp.succ_lt_of_lt_cost {op : BusOp} {waited : Nat} (h : waited < op.cost) :
    waited + 1 < UInt32.size := by
  have hsize : UInt32.size = 4294967296 := rfl
  cases op with
  | read addr expect => simp only [cost] at h; omega
  | write addr data strobe => simp only [cost] at h; omega
  | idle cycles =>
    have hlt := cycles.toNat_lt_size
    simp only [cost] at h
    omega
  | finish => simp [cost] at h

namespace Master

variable {m n : Master} {p : Pins} {x : Master × Pins} {i : Inputs} {inputs : List Inputs}

/-- The books of a master agree with its state. -/
inductive Tallied (m : Master) : Prop
  | reset : m.state = .reset → m.mismatch = none → m.completed = 0 → Tallied m
  | working {waited op} : m.state = .op m.completed waited → m.mismatch = none →
      m.ops[m.completed]? = some op → waited < op.cost → Tallied m
  | passed : m.state = .sentinel → m.mismatch = none → m.completed = m.ops.length → Tallied m
  | failed {found} : m.state = .sentinel → m.mismatch = some found → found.op = m.completed →
      m.ops[found.op]? = some (.read found.addr (some found.expected)) →
      found.actual ≠ found.expected → Tallied m
  | finished : m.state = .finished → m.mismatch = none → m.ops[m.completed]? = some .finish →
      Tallied m

/-- Nothing is taken back: the script stays, and what is done stays done. -/
structure Onward (m n : Master) : Prop where
  ops : n.ops = m.ops
  sentinels : n.sentinels = m.sentinels
  completed : m.completed ≤ n.completed

theorem settle_tallied {rest : List BusOp} (hmis : m.mismatch = none)
    (hrest : m.ops.drop m.completed = rest) (hle : m.completed ≤ m.ops.length) :
    (m.settle m.completed rest).Tallied := by
  induction rest generalizing m with
  | nil =>
    have hpast := List.drop_eq_nil_iff.mp hrest
    exact .passed rfl hmis (Nat.le_antisymm hle hpast)
  | cons op rest ih =>
    have hop := BusOp.getElem?_of_drop hrest
    cases op with
    | finish => exact .finished rfl hmis hop
    | idle cycles =>
      by_cases hz : cycles = 0
      · have htail : m.ops.drop (m.completed + 1) = rest := by
          rw [← List.tail_drop, hrest]
          rfl
        obtain ⟨hlt, _⟩ := List.getElem?_eq_some_iff.mp hop
        rw [settle, if_pos hz]
        exact ih (m := { m with completed := m.completed + 1 }) hmis htail hlt
      · rw [settle, if_neg hz]
        exact .working rfl hmis hop (Nat.pos_of_ne_zero fun h => hz (UInt32.toNat_inj.mp h))
    | read addr expect => exact .working rfl hmis hop Nat.one_pos
    | write addr data strobe => exact .working rfl hmis hop Nat.one_pos

theorem settle_onward (index : Nat) (rest : List BusOp) : Onward m (m.settle index rest) := by
  obtain ⟨_, _, _, heq⟩ := settle_eq (m := m) index rest
  rw [heq]
  exact ⟨rfl, rfl, Nat.le_add_right _ _⟩

theorem settle_started (index : Nat) (rest : List BusOp) :
    (m.settle index rest).state ≠ .reset := by
  obtain ⟨_, _, hne, heq⟩ := settle_eq (m := m) index rest
  rw [heq]
  exact hne

theorem Move.started (h : Move p m n) : n.state ≠ .reset := by
  cases h with
  | stays hstate => exact hstate
  | enters => exact settle_started _ _
  | advances => exact settle_started _ _
  | waits => simp
  | mismatches => simp
  | finishes => simp

theorem Move.onward (h : Move p m n) : Onward m n := by
  cases h with
  | enters => exact settle_onward ..
  | advances =>
    obtain ⟨hops, hsent, hle⟩ := settle_onward (m := { m with completed := m.completed + 1 }) ..
    exact ⟨hops, hsent, (Nat.le_succ _).trans hle⟩
  | stays => exact ⟨rfl, rfl, Nat.le_refl _⟩
  | waits => exact ⟨rfl, rfl, Nat.le_refl _⟩
  | mismatches => exact ⟨rfl, rfl, Nat.le_refl _⟩
  | finishes => exact ⟨rfl, rfl, Nat.le_refl _⟩

/-- Where the books are about an op, that is the op that comes after those completed. -/
theorem Tallied.at_op {index waited : Nat} (h : m.Tallied) (hstate : m.state = .op index waited) :
    index = m.completed ∧ m.mismatch = none ∧
      ∃ op, m.ops[m.completed]? = some op ∧ waited < op.cost := by
  cases h with
  | working hworking hmis hop hcost =>
    obtain ⟨rfl, rfl⟩ := MasterState.op.inj (hworking.symm.trans hstate)
    exact ⟨rfl, hmis, _, hop, hcost⟩
  | reset hreset => simp [hreset] at hstate
  | passed hpassed => simp [hpassed] at hstate
  | failed hfailed => simp [hfailed] at hstate
  | finished hfinished => simp [hfinished] at hstate

theorem Tallied.move (h : m.Tallied) (hmove : Move p m n) : n.Tallied := by
  cases hmove with
  | stays => exact h
  | enters hstate =>
    cases h with
    | reset _ hmis hzero =>
      have henter := settle_tallied (m := m) hmis rfl (by omega)
      rwa [hzero] at henter
    | working hworking => simp [hworking] at hstate
    | passed hpassed => simp [hpassed] at hstate
    | failed hfailed => simp [hfailed] at hstate
    | finished hfinished => simp [hfinished] at hstate
  | advances hstate hop =>
    obtain ⟨rfl, hmis, _⟩ := h.at_op hstate
    obtain ⟨hlt, _⟩ := List.getElem?_eq_some_iff.mp hop
    exact settle_tallied (m := { m with completed := m.completed + 1 }) hmis rfl hlt
  | waits hstate hop hmore =>
    obtain ⟨rfl, hmis, _⟩ := h.at_op hstate
    exact .working rfl hmis hop hmore
  | mismatches hstate hop hdiffers =>
    obtain ⟨rfl, _, _⟩ := h.at_op hstate
    exact .failed rfl rfl rfl hop hdiffers
  | finishes hstate hop =>
    -- a finish is never waited for
    obtain ⟨rfl, _, op, hat, hcost⟩ := h.at_op hstate
    obtain rfl := Option.some.inj (hat.symm.trans hop)
    simp [BusOp.cost] at hcost

theorem Tallied.saw (h : m.Tallied) (clock : Bool) : (m.saw clock).Tallied := by
  cases h with
  | reset hstate hmis hzero => exact .reset hstate hmis hzero
  | working hstate hmis hop hcost => exact .working hstate hmis hop hcost
  | passed hstate hmis hall => exact .passed hstate hmis hall
  | failed hstate hmis hindex hread hdiffers => exact .failed hstate hmis hindex hread hdiffers
  | finished hstate hmis hfinish => exact .finished hstate hmis hfinish

theorem Tallied.completed_le (h : m.Tallied) : m.completed ≤ m.ops.length := by
  cases h with
  | reset _ _ hzero => omega
  | working _ _ hop => exact Nat.le_of_lt (List.getElem?_eq_some_iff.mp hop).1
  | passed _ _ hall => exact Nat.le_of_eq hall
  | failed _ _ hindex hread =>
    rw [← hindex]
    exact Nat.le_of_lt (List.getElem?_eq_some_iff.mp hread).1
  | finished _ _ hfinish => exact Nat.le_of_lt (List.getElem?_eq_some_iff.mp hfinish).1

theorem Onward.trans {k : Master} (h : Onward m n) (h' : Onward n k) : Onward m k :=
  ⟨h'.ops.trans h.ops, h'.sentinels.trans h.sentinels, h.completed.trans h'.completed⟩

/-- A turn with reset as it must be moves the books on or leaves them as they are. -/
theorem Seated.turn_onward (h : Seated x) (hreset : i.reset = true → x.1.state = .reset)
    (ht : x.1.Tallied) : (device.turn x i).1.Tallied ∧ Onward x.1 (device.turn x i).1 := by
  have hmove := next_move (m := x.1) (p := x.2.drive i)
  rcases h.turn_cases i hreset with ⟨_, hmaster, _⟩ | ⟨_, _, hmaster, _⟩
  · rw [hmaster]
    exact ⟨ht.saw i.clock, rfl, rfl, Nat.le_refl _⟩
  · rw [hmaster]
    obtain ⟨hops, hsent, hle⟩ := hmove.onward
    exact ⟨(ht.move hmove).saw i.clock, hops, hsent, hle⟩

theorem Seated.turn_stays (h : Seated x) (hreset : i.reset = true → x.1.state = .reset)
    (hstays : x.1.next (x.2.drive i) = x.1) : (device.turn x i).1 = x.1.saw i.clock := by
  rcases h.turn_cases i hreset with ⟨_, hmaster, _⟩ | ⟨_, _, hmaster, _⟩
  · exact hmaster
  · rw [hmaster, hstays]

theorem Seated.turn_started (h : Seated x) (hreset : i.reset = true → x.1.state = .reset) :
    (device.turn x i).1.state = .reset ↔
      x.1.state = .reset ∧ (!i.reset && i.clock && !x.2.clock) = false := by
  cases hr : i.reset with
  | true =>
    rw [turn_of_reset hr]
    simp [hreset hr]
  | false =>
    rw [Bool.not_false, Bool.true_and, ← h.lastClock]
    cases hc : i.clock && !x.1.lastClock with
    | true =>
      have hstarted := (next_move (m := x.1) (p := x.2.drive i)).started
      rw [turn_of_edge hr hc]
      exact ⟨fun hstate => absurd hstate hstarted, fun ⟨_, hf⟩ => by simp at hf⟩
    | false =>
      rw [turn_of_flat hr hc]
      exact ⟨fun hstate => ⟨hstate, rfl⟩, fun hstate => hstate.1⟩

theorem Seated.turn_clock (h : Seated x) (hreset : i.reset = true → x.1.state = .reset) :
    (device.turn x i).2.clock = i.clock := by
  rcases h.turn_cases i hreset with ⟨_, _, hpins⟩ | ⟨_, _, _, hpins⟩
  · rw [hpins]
    rfl
  · rw [hpins, issue_clock]
    rfl

/-- What every turn keeps, a run keeps. -/
theorem Seated.turns_keep {P : Master × Pins → Prop} (h : Seated x)
    (hfree : Inputs.ReleasedForGood inputs)
    (hreset : ∀ i ∈ inputs, i.reset = true → x.1.state = .reset)
    (hkeep : ∀ y i, Seated y → (i.reset = true → y.1.state = .reset) → P y →
      P (device.turn y i)) (hx : P x) : P (device.turns x inputs) := by
  induction inputs generalizing x with
  | nil => exact hx
  | cons i inputs ih =>
    obtain ⟨hlater, hrest⟩ := List.pairwise_cons.mp hfree
    have hfirst := hreset i (List.mem_cons_self ..)
    obtain ⟨hturn, hstay⟩ := h.turn i hfirst
    exact ih hturn hrest (fun j hj hr => hstay (hlater j hj hr)) (hkeep x i h hfirst hx)

theorem Seated.turns_onward (h : Seated x) (hfree : Inputs.ReleasedForGood inputs)
    (hreset : ∀ i ∈ inputs, i.reset = true → x.1.state = .reset) (ht : x.1.Tallied) :
    (device.turns x inputs).1.Tallied ∧ Onward x.1 (device.turns x inputs).1 := by
  refine h.turns_keep (P := fun y => y.1.Tallied ∧ Onward x.1 y.1) hfree hreset ?_
    ⟨ht, rfl, rfl, Nat.le_refl _⟩
  rintro y i hy hr ⟨htallied, honward⟩
  obtain ⟨hnext, hmore⟩ := hy.turn_onward hr htallied
  exact ⟨hnext, honward.trans hmore⟩

/-- A master at its sentinel, or finished, stays there. -/
theorem Seated.turns_rest (h : Seated x) (hfree : Inputs.ReleasedForGood inputs)
    (hreset : ∀ i ∈ inputs, i.reset = true → x.1.state = .reset)
    (hrest : x.1.state = .sentinel ∨ x.1.state = .finished) :
    (device.turns x inputs).1.state = x.1.state ∧
      (device.turns x inputs).1.mismatch = x.1.mismatch ∧
      (device.turns x inputs).1.completed = x.1.completed := by
  obtain ⟨clock, hsame⟩ : ∃ clock, (device.turns x inputs).1 = x.1.saw clock := by
    refine h.turns_keep (P := fun y => ∃ clock, y.1 = x.1.saw clock) hfree hreset ?_
      ⟨x.1.lastClock, rfl⟩
    rintro y i hy hr ⟨clock, hsame⟩
    have hstate : y.1.state = x.1.state := by rw [hsame]; rfl
    have hstays : y.1.next (y.2.drive i) = y.1 := by
      rcases hrest with hrest | hrest <;> rw [next, hstate, hrest]
    refine ⟨i.clock, ?_⟩
    rw [hy.turn_stays hr hstays, hsame]
    rfl
  rw [hsame]
  exact ⟨rfl, rfl, rfl⟩

theorem Seated.turns_started (h : Seated x) (hfree : Inputs.ReleasedForGood inputs)
    (hreset : ∀ i ∈ inputs, i.reset = true → x.1.state = .reset) :
    (device.turns x inputs).1.state = .reset ↔
      x.1.state = .reset ∧ Inputs.starts x.2.clock inputs = false := by
  induction inputs generalizing x with
  | nil => simp [Device.turns, Inputs.starts]
  | cons i inputs ih =>
    obtain ⟨hlater, hrest⟩ := List.pairwise_cons.mp hfree
    have hfirst := hreset i (List.mem_cons_self ..)
    obtain ⟨hturn, hstay⟩ := h.turn i hfirst
    have hthen := ih hturn hrest (fun j hj hr => hstay (hlater j hj hr))
    rw [h.turn_clock hfirst, h.turn_started hfirst, and_assoc] at hthen
    rw [Inputs.starts, Bool.or_eq_false_iff]
    exact hthen

theorem asked_of_read (h : (m.issue p).readAddrValid = true) :
    ∃ expect, m.asked = .read (m.issue p).readAddr expect := by
  rw [issue_eq] at h ⊢
  cases hop : m.asked with
  | read addr expect => exact ⟨expect, rfl⟩
  | write addr data strobe => simp [hop, request, Pins.clearRequests] at h
  | idle cycles => simp [hop, request, Pins.clearRequests] at h
  | finish => simp [hop, request, Pins.clearRequests] at h

theorem asked_of_write
    (h : (m.issue p).writeAddrValid = true ∨ (m.issue p).writeDataValid = true) :
    Bus.writes (m.issue p) = true ∧ m.asked =
      .write (m.issue p).writeAddr (m.issue p).writeData (m.issue p).writeStrobe := by
  rw [issue_eq] at h ⊢
  cases hop : m.asked with
  | write addr data strobe => exact ⟨rfl, rfl⟩
  | read addr expect => simp [hop, request, Pins.clearRequests] at h
  | idle cycles => simp [hop, request, Pins.clearRequests] at h
  | finish => simp [hop, request, Pins.clearRequests] at h

/-- What the books let a master ask for: the op that is next, or else a sentinel. -/
theorem Tallied.asked_cases (h : m.Tallied) :
    m.asked = .finish ∨
      (m.mismatch = none ∧ m.ops[m.completed]? = some m.asked) ∨
      (m.mismatch = none ∧ m.completed = m.ops.length ∧ m.asked = .read m.sentinels.pass none) ∨
      (m.mismatch ≠ none ∧ m.asked = .read m.sentinels.fail none) := by
  cases h with
  | reset hstate => exact .inl (by rw [asked, hstate])
  | @working waited op hstate hmis hop =>
    have hasked : m.asked = op := by simp [asked, hstate, hop]
    exact .inr (.inl ⟨hmis, by rw [hasked, hop]⟩)
  | passed hstate hmis hall =>
    exact .inr (.inr (.inl ⟨hmis, hall, by simp [asked, hstate, sentinelAddr, hmis]⟩))
  | failed hstate hmis =>
    exact .inr (.inr (.inr ⟨by simp [hmis], by simp [asked, hstate, sentinelAddr, hmis]⟩))
  | finished hstate => exact .inl (by rw [asked, hstate])

/-- The books of a master that plays `ops` and has seen `past`, beside what it asks for. -/
structure Booked (ops : List BusOp) (s : Sentinels) (past : List Inputs) (x : Master × Pins) :
    Prop where
  completed : x.1.completed ≤ ops.length
  working : ∀ index waited, x.1.state = .op index waited → index = x.1.completed ∧
    waited + 1 < UInt32.size ∧ ∃ op, ops[index]? = some op ∧ waited < op.cost ∧
      x.2 = request x.2.clearRequests op
  reads : x.2.readAddrValid = true →
    (x.1.mismatch = none ∧ ∃ expect, ops[x.1.completed]? = some (.read x.2.readAddr expect)) ∨
      (x.1.mismatch = none ∧ x.1.completed = ops.length ∧ x.2.readAddr = s.pass) ∨
      (x.1.mismatch ≠ none ∧ x.2.readAddr = s.fail)
  writes : x.2.writeAddrValid = true ∨ x.2.writeDataValid = true →
    Bus.writes x.2 = true ∧ x.1.mismatch = none ∧
      ops[x.1.completed]? = some (.write x.2.writeAddr x.2.writeData x.2.writeStrobe)
  mismatch : ∀ found, x.1.mismatch = some found → found.op = x.1.completed ∧
    ops[found.op]? = some (.read found.addr (some found.expected)) ∧
    found.actual ≠ found.expected
  finished : x.1.finished = true ↔
    Inputs.starts false past = true ∧ ops[x.1.completed]? = some .finish

theorem Tallied.mismatch (h : m.Tallied) {found : Mismatch} (hfound : m.mismatch = some found) :
    m.state = .sentinel ∧ found.op = m.completed ∧
      m.ops[found.op]? = some (.read found.addr (some found.expected)) ∧
      found.actual ≠ found.expected := by
  cases h with
  | failed hstate hmis hindex hread hdiffers =>
    obtain rfl := Option.some.inj (hmis.symm.trans hfound)
    exact ⟨hstate, hindex, hread, hdiffers⟩
  | reset _ hmis => simp [hmis] at hfound
  | working _ hmis => simp [hmis] at hfound
  | passed _ hmis => simp [hmis] at hfound
  | finished _ hmis => simp [hmis] at hfound

theorem Tallied.finished_iff (h : m.Tallied) :
    m.finished = true ↔ m.state ≠ .reset ∧ m.ops[m.completed]? = some .finish := by
  have hfinished : m.finished = true ↔ m.state = .finished := by simp [Master.finished]
  rw [hfinished]
  cases h with
  | finished hstate _ hop => simp [hstate, hop]
  | reset hstate => simp [hstate]
  | working hstate _ hop hcost =>
    -- an op that is waited for is not a finish
    simp only [hstate, hop]
    constructor
    · simp
    · rintro ⟨_, hfinish⟩
      rw [Option.some.inj hfinish] at hcost
      simp [BusOp.cost] at hcost
  | passed hstate _ hall => simp [hstate, hall]
  | failed hstate _ hindex hread =>
    rw [← hindex, hread]
    simp [hstate]

theorem Seated.booked {ops : List BusOp} {s : Sentinels} {past : List Inputs} (h : Seated x)
    (ht : x.1.Tallied) (hops : x.1.ops = ops) (hsent : x.1.sentinels = s)
    (hstarted : x.1.state = .reset ↔ Inputs.starts false past = false) : Booked ops s past x := by
  obtain ⟨p, hp⟩ := h.issued
  subst hops hsent
  refine ⟨ht.completed_le, ?_, ?_, ?_, fun found hfound => (ht.mismatch hfound).2, ?_⟩
  · intro index waited hstate
    obtain ⟨rfl, _, op, hop, hcost⟩ := ht.at_op hstate
    have hasked : x.1.asked = op := by simp [asked, hstate, hop]
    have hissued := issue_issue (m := x.1) (p := p)
    rw [← hp, issue_eq, hasked] at hissued
    exact ⟨rfl, BusOp.succ_lt_of_lt_cost hcost, op, hop, hcost, hissued.symm⟩
  · intro hread
    rw [hp] at hread ⊢
    obtain ⟨expect, hop⟩ := asked_of_read hread
    rcases ht.asked_cases with hnone | ⟨hmis, hnext⟩ | ⟨hmis, hall, hpass⟩ | ⟨hmis, hfail⟩
    · cases hop.symm.trans hnone
    · exact .inl ⟨hmis, expect, by rw [hnext, hop]⟩
    · exact .inr (.inl ⟨hmis, hall, (BusOp.read.inj (hop.symm.trans hpass)).1⟩)
    · exact .inr (.inr ⟨hmis, (BusOp.read.inj (hop.symm.trans hfail)).1⟩)
  · intro hwrite
    rw [hp] at hwrite ⊢
    obtain ⟨hboth, hop⟩ := asked_of_write hwrite
    rcases ht.asked_cases with hnone | ⟨hmis, hnext⟩ | ⟨_, _, hpass⟩ | ⟨_, hfail⟩
    · cases hop.symm.trans hnone
    · exact ⟨hboth, hmis, by rw [hnext, hop]⟩
    · cases hop.symm.trans hpass
    · cases hop.symm.trans hfail
  · rw [ht.finished_iff, Ne, hstarted, Bool.not_eq_false]

/-- Whatever levels a master is driven with, its books agree with its script and with what it asks
for; nothing in them is taken back, and they are closed once a read has gone wrong or a finish is
reached. -/
theorem books_agree_with_script (ops : List BusOp) (s : Sentinels) {past later : List Inputs}
    (hfree : Inputs.ReleasedForGood (past ++ later)) :
    ∃ x y, device.turns (unplayed ops s) past = x ∧
      device.turns (unplayed ops s) (past ++ later) = y ∧
      Booked ops s past x ∧
      x.1.completed ≤ y.1.completed ∧
      (x.1.mismatch ≠ none → y.1.mismatch = x.1.mismatch ∧ y.1.completed = x.1.completed) ∧
      (x.1.finished = true → y.1.finished = true ∧ y.1.completed = x.1.completed ∧
        y.2.requests.pending = false) := by
  have hseated := seated_unplayed ops s
  have hreset : ∀ i ∈ past ++ later, i.reset = true → (unplayed ops s).1.state = .reset :=
    fun _ _ _ => rfl
  have htallied : (unplayed ops s).1.Tallied := .reset rfl rfl rfl
  have hpast : Inputs.ReleasedForGood past := hfree.sublist (List.sublist_append_left past later)
  have hlater : Inputs.ReleasedForGood later := hfree.sublist (List.sublist_append_right past later)
  obtain ⟨hx, hreset'⟩ := hseated.turns hfree hreset rfl
  obtain ⟨ht, honward⟩ := hseated.turns_onward hpast (fun _ _ _ => rfl) htallied
  have hstarted := hseated.turns_started hpast (fun _ _ _ => rfl)
  have hturns : device.turns (unplayed ops s) (past ++ later) =
    device.turns (device.turns (unplayed ops s) past) later := List.foldl_append
  rw [hturns]
  generalize device.turns (unplayed ops s) past = x at *
  obtain ⟨_, honward'⟩ := hx.turns_onward hlater hreset' ht
  obtain ⟨hy, _⟩ := hx.turns hlater hreset' (List.append_nil later).symm
  refine ⟨x, _, rfl, rfl, ?_, honward'.completed, ?_, ?_⟩
  · refine hx.booked ht honward.ops honward.sentinels (hstarted.trans ?_)
    simp [unplayed]
  · intro hmis
    obtain ⟨found, hfound⟩ := Option.ne_none_iff_exists'.mp hmis
    obtain ⟨_, hsame, hcompleted⟩ := hx.turns_rest hlater hreset' (.inl (ht.mismatch hfound).1)
    exact ⟨hsame, hcompleted⟩
  · intro hfinished
    have hstate : x.1.state = .finished := by simpa [finished] using hfinished
    obtain ⟨hsame, _, hcompleted⟩ := hx.turns_rest hlater hreset' (.inr hstate)
    have hdone := hsame.trans hstate
    obtain ⟨p, hp⟩ := hy.issued
    refine ⟨by simp [finished, hdone], hcompleted, ?_⟩
    rw [hp, issue, hdone]
    rfl

/-- A script that idles for no time before and after its write. -/
def hastyOps : List BusOp := [.idle 0, .write 0x10 1 15, .idle 0, .finish, .read 0x10 none]

/-- Levels under which a write is answered on the second edge. -/
def answered : List Inputs :=
  [{ reset := true }, { clock := true }, {}, { clock := true, writeRespValid := true }]

theorem books_agree_with_script_to_the_end :
    (Inputs.ReleasedForGood (stalled.take 13 ++ stalled.drop 13) ∧
      ∃ x y, device.turns (unplayed stalledOps ⟨0xff0, 0xff4⟩) (stalled.take 13) = x ∧
        device.turns (unplayed stalledOps ⟨0xff0, 0xff4⟩) (stalled.take 13 ++ stalled.drop 13) = y ∧
        x.1.mismatch = some ⟨2, 0x10, 7, 9⟩ ∧ stalledOps[2]? = some (.read 0x10 (some 7)) ∧
        x.1.completed = 2 ∧ x.2.readAddrValid = true ∧ x.2.readAddr = 0xff4 ∧
        y.1.mismatch = some ⟨2, 0x10, 7, 9⟩ ∧ y.1.completed = 2) ∧
    Inputs.ReleasedForGood (answered ++ stalled.drop 1) ∧
      ∃ x y, device.turns (unplayed hastyOps ⟨0xff0, 0xff4⟩) answered = x ∧
        device.turns (unplayed hastyOps ⟨0xff0, 0xff4⟩) (answered ++ stalled.drop 1) = y ∧
        x.1.completed = 3 ∧ hastyOps[3]? = some .finish ∧ x.1.finished = true ∧
        y.1.finished = true ∧ y.1.completed = 3 ∧ y.2.requests.pending = false := by
  have hstalled : Inputs.ReleasedForGood (stalled.take 13 ++ stalled.drop 13) := by
    unfold Inputs.ReleasedForGood
    decide
  have hanswered : Inputs.ReleasedForGood (answered ++ stalled.drop 1) := by
    unfold Inputs.ReleasedForGood
    decide
  refine ⟨⟨hstalled, ?_⟩, hanswered, ?_⟩
  · obtain ⟨x, y, hx, hy, booked, _, hkeeps, _⟩ :=
      books_agree_with_script stalledOps ⟨0xff0, 0xff4⟩ hstalled
    have hfound : x.1.mismatch = some ⟨2, 0x10, 7, 9⟩ := by rw [← hx]; decide
    have hread : x.2.readAddrValid = true := by rw [← hx]; decide
    obtain ⟨hindex, hop, _⟩ := booked.mismatch _ hfound
    obtain ⟨hmis, hcompleted⟩ := hkeeps (by simp [hfound])
    have haddr : x.2.readAddr = 0xff4 := by
      rcases booked.reads hread with ⟨hnone, _⟩ | ⟨hnone, _⟩ | ⟨_, hfail⟩
      · simp [hfound] at hnone
      · simp [hfound] at hnone
      · exact hfail
    exact ⟨x, y, hx, hy, hfound, hop, hindex.symm, hread, haddr, hmis.trans hfound,
      hcompleted.trans hindex.symm⟩
  · obtain ⟨x, y, hx, hy, booked, _, _, hends⟩ :=
      books_agree_with_script hastyOps ⟨0xff0, 0xff4⟩ hanswered
    have hcompleted : x.1.completed = 3 := by rw [← hx]; decide
    have hfinish : hastyOps[x.1.completed]? = some .finish := by rw [hcompleted]; rfl
    have hfinished := booked.finished.mpr ⟨by decide, hfinish⟩
    obtain ⟨hdone, hsame, hquiet⟩ := hends hfinished
    exact ⟨x, y, hx, hy, hcompleted, rfl, hfinished, hdone, hsame.trans hcompleted, hquiet⟩

end Master

end BusBench

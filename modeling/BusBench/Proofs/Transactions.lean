import BusBench.Proofs.Inputs
import BusBench.Master

namespace BusBench

/-- A transaction that the bus has taken; a read comes with the word that it returned. -/
inductive Transaction where
  | read (addr data : Word)
  | write (addr data : Word) (strobe : UInt8)
  deriving DecidableEq, Repr

namespace Transaction

/-- The word that a transaction returned. -/
def returned : Transaction → Option Word
  | read _ data => some data
  | write _ _ _ => none

/-- The reads of a list return what they are answered, read `reads` coming first. -/
def Answered (reply : Nat → Word) (reads : Nat) (l : List Transaction) : Prop :=
  ∀ k w, (l.filterMap returned)[k]? = some w → reply (reads + k) = w

/-- The transactions of a list, then those of a course. -/
def ahead : List Transaction → (Nat → Option Transaction) → Nat → Option Transaction
  | [], rest, n => rest n
  | t :: _, _, 0 => some t
  | _ :: l, rest, n + 1 => ahead l rest n

theorem ahead_append (l l' : List Transaction) (rest : Nat → Option Transaction) :
    ahead (l ++ l') rest = ahead l (ahead l' rest) := by
  induction l with
  | nil => rfl
  | cons t l ih =>
    funext n
    cases n with
    | zero => rfl
    | succ n => exact congrFun ih n

theorem ahead_getElem? {l : List Transaction} {rest : Nat → Option Transaction} {n : Nat}
    {t : Transaction} (h : l[n]? = some t) : ahead l rest n = some t := by
  induction l generalizing n with
  | nil => simp at h
  | cons u l ih =>
    cases n with
    | zero => simpa [ahead] using h
    | succ n => exact ih (by simpa using h)

theorem Answered.left {reply : Nat → Word} {reads : Nat} {l l' : List Transaction}
    (h : Answered reply reads (l ++ l')) : Answered reply reads l := by
  intro k w hk
  apply h k w
  obtain ⟨hlt, _⟩ := List.getElem?_eq_some_iff.mp hk
  rw [List.filterMap_append, List.getElem?_append_left hlt]
  exact hk

theorem Answered.right {reply : Nat → Word} {reads : Nat} {l l' : List Transaction}
    (h : Answered reply reads (l ++ l')) :
    Answered reply (reads + (l.filterMap returned).length) l' := by
  intro k w hk
  rw [Nat.add_assoc]
  apply h
  rw [List.filterMap_append, List.getElem?_append_right (Nat.le_add_right ..),
    Nat.add_sub_cancel_left]
  exact hk

end Transaction

/-- The transactions of a script, whatever time they take, if its reads from number `reads` on are
answered so: at its end the pass address is read again and again, after a wrong word the fail
address. -/
def BusOp.course (s : Sentinels) (reply : Nat → Word) (reads : Nat) :
    List BusOp → Nat → Option Transaction
  | [], n => some (.read s.pass (reply (reads + n)))
  | .finish :: _, _ => none
  | .idle _ :: ops, n => course s reply reads ops n
  | .write addr data strobe :: _, 0 => some (.write addr data strobe)
  | .write _ _ _ :: ops, n + 1 => course s reply reads ops n
  | .read addr _ :: _, 0 => some (.read addr (reply reads))
  | .read _ expect :: ops, n + 1 =>
    if expect.all (· = reply reads) then course s reply (reads + 1) ops n
    else some (.read s.fail (reply (reads + 1 + n)))

/-- What a device asks the bus for. -/
structure Requests where
  readAddrValid : Bool
  readAddr : Word
  writeAddrValid : Bool
  writeAddr : Word
  writeDataValid : Bool
  writeData : Word
  writeStrobe : UInt8
  deriving DecidableEq, Repr

/-- Something is asked for. -/
def Requests.pending (r : Requests) : Bool :=
  r.readAddrValid || r.writeAddrValid || r.writeDataValid

namespace Pins

variable {p : Pins} {i : Inputs}

def requests (p : Pins) : Requests :=
  ⟨p.readAddrValid, p.readAddr, p.writeAddrValid, p.writeAddr, p.writeDataValid, p.writeData,
    p.writeStrobe⟩

/-- What is taken on these pins after a clock level: on a rising clock, each request that meets
its response. -/
def taken (p : Pins) (last : Bool) : List Transaction :=
  if p.clock && !last then
    (if p.readAddrValid && p.readDataValid then [.read p.readAddr p.readData] else []) ++
      if Bus.writes p && p.writeRespValid then [.write p.writeAddr p.writeData p.writeStrobe]
      else []
  else []

theorem requests_drive : (p.drive i).requests = p.requests := rfl

end Pins

namespace Master

variable {m : Master} {p q : Pins} {i : Inputs} {reply : Nat → Word} {reads : Nat}

/-- The op that the master asks the bus for; a finish asks for nothing. -/
def asked (m : Master) : BusOp :=
  match m.state with
  | .op index _ => m.ops[index]?.getD .finish
  | .sentinel => .read m.sentinelAddr none
  | .reset => .finish
  | .finished => .finish

theorem issue_eq : m.issue p = request p.clearRequests m.asked := by
  unfold issue asked
  cases m.state with
  | op index waited =>
    simp only
    cases m.ops[index]? <;> rfl
  | reset => rfl
  | sentinel => rfl
  | finished => rfl

theorem issue_drive : (m.issue p).drive i = m.issue (p.drive i) := by
  rw [issue_eq, issue_eq]
  cases m.asked <;> rfl

theorem issue_issue : m.issue (m.issue p) = m.issue p := by
  simp only [issue_eq]
  cases m.asked <;> rfl

theorem issue_clock : (m.issue p).clock = p.clock := by
  rw [issue_eq]
  cases m.asked <;> rfl

/-- A read and a write are not asked for together. -/
theorem issue_one_request :
    ¬ ((m.issue p).readAddrValid = true ∧
      ((m.issue p).writeAddrValid = true ∨ (m.issue p).writeDataValid = true)) := by
  rw [issue_eq]
  cases m.asked <;> simp [request, Pins.clearRequests]

/-- What the bus takes of the request of an op. -/
def takes (p : Pins) : BusOp → List Transaction
  | .read addr _ => if p.readDataValid then [.read addr p.readData] else []
  | .write addr data strobe => if p.writeRespValid then [.write addr data strobe] else []
  | .idle _ => []
  | .finish => []

theorem issue_taken (hq : q = m.issue p) {last : Bool} :
    q.taken last = if q.clock && !last then takes q m.asked else [] := by
  rw [issue_eq] at hq
  cases hop : m.asked <;>
    simp [hq, hop, Pins.taken, takes, request, Pins.clearRequests, Bus.writes]

/-- What is left of the course of a script. -/
def left (m : Master) (reply : Nat → Word) (reads : Nat) : Nat → Option Transaction :=
  match m.state with
  | .reset => BusOp.course m.sentinels reply reads m.ops
  | .op index _ => BusOp.course m.sentinels reply reads (m.ops.drop index)
  | .sentinel => fun n => some (.read m.sentinelAddr (reply (reads + n)))
  | .finished => fun _ => none

theorem left_of_reset (h : m.state = .reset) :
    m.left reply reads = BusOp.course m.sentinels reply reads m.ops := by
  simp only [left, h]

theorem left_of_op {index waited : Nat} (h : m.state = .op index waited) :
    m.left reply reads = BusOp.course m.sentinels reply reads (m.ops.drop index) := by
  simp only [left, h]

theorem left_of_sentinel (h : m.state = .sentinel) (n : Nat) :
    m.left reply reads n = some (.read m.sentinelAddr (reply (reads + n))) := by
  simp only [left, h]

theorem settle_left (hmis : m.mismatch = none) {index : Nat} {rest : List BusOp}
    (hrest : m.ops.drop index = rest) :
    (m.settle index rest).left reply reads = BusOp.course m.sentinels reply reads rest := by
  induction rest generalizing m index with
  | nil =>
    funext n
    simp [settle, left, sentinelAddr, hmis, BusOp.course]
  | cons op rest ih =>
    have hop : ({ m with state := .op index 0 } : Master).left reply reads =
        BusOp.course m.sentinels reply reads (op :: rest) :=
      congrArg (BusOp.course m.sentinels reply reads) hrest
    cases op with
    | finish => rfl
    | idle cycles =>
      by_cases hz : cycles = 0
      · have htail : m.ops.drop (index + 1) = rest := by
          rw [← List.tail_drop, hrest]
          rfl
        rw [settle, if_pos hz]
        exact ih (m := { m with completed := m.completed + 1 }) hmis htail
      · rw [settle, if_neg hz]
        exact hop
    | read addr expect => exact hop
    | write addr data strobe => exact hop

/-- All that settling changes: ops of no cycles are counted, and reset is left. -/
theorem settle_eq (index : Nat) (rest : List BusOp) :
    ∃ skipped state, state ≠ .reset ∧
      m.settle index rest = { m with completed := m.completed + skipped, state } := by
  induction rest generalizing m index with
  | nil => exact ⟨0, .sentinel, by simp, rfl⟩
  | cons op rest ih =>
    cases op with
    | idle cycles =>
      rw [settle]
      split
      next =>
        obtain ⟨skipped, state, hne, heq⟩ :=
          ih (m := { m with completed := m.completed + 1 }) (index + 1)
        exact ⟨1 + skipped, state, hne, by rw [heq, Nat.add_assoc]⟩
      next => exact ⟨0, .op index 0, by simp, rfl⟩
    | finish => exact ⟨0, .finished, by simp, rfl⟩
    | read addr expect => exact ⟨0, .op index 0, by simp, rfl⟩
    | write addr data strobe => exact ⟨0, .op index 0, by simp, rfl⟩

theorem settle_mismatch (index : Nat) (rest : List BusOp) :
    (m.settle index rest).mismatch = m.mismatch := by
  obtain ⟨_, _, _, heq⟩ := settle_eq (m := m) index rest
  rw [heq]

theorem advance_left (hmis : m.mismatch = none) (index : Nat) :
    (m.advance index).left reply reads =
      BusOp.course m.sentinels reply reads (m.ops.drop (index + 1)) :=
  settle_left (m := { m with completed := m.completed + 1 }) hmis rfl

theorem advance_mismatch (index : Nat) : (m.advance index).mismatch = m.mismatch :=
  settle_mismatch ..

theorem advance_course {index : Nat} {op : BusOp} {rest : List BusOp} (hmis : m.mismatch = none)
    (hdrop : m.ops.drop index = op :: rest) :
    (m.advance index).left reply reads = BusOp.course m.sentinels reply reads rest := by
  have hrest : m.ops.drop (index + 1) = rest := by
    rw [← List.tail_drop, hdrop]
    rfl
  rw [advance_left hmis, hrest]

/-- A read whose word comes has the rest of the course after it, or the fail address if the word
is wrong. -/
theorem complete_read_left {index waited : Nat} {addr : Word} {expect : Option Word}
    {rest : List BusOp} (hmis : m.mismatch = none)
    (hdrop : m.ops.drop index = .read addr expect :: rest) (hv : q.readDataValid = true)
    (hreply : reply reads = q.readData) :
    BusOp.course m.sentinels reply reads (.read addr expect :: rest) =
      Transaction.ahead [.read addr q.readData]
        ((m.complete q index waited (.read addr expect)).left reply (reads + 1)) := by
  funext n
  cases n with
  | zero =>
    rw [BusOp.course, hreply]
    rfl
  | succ n =>
    change _ = (m.complete q index waited (.read addr expect)).left reply (reads + 1) n
    rw [BusOp.course, hreply]
    cases expect with
    | none => simp [complete, hv, advance_course hmis hdrop]
    | some e =>
      by_cases he : e = q.readData
      · simp [complete, hv, he, advance_course hmis hdrop]
      · simp [complete, hv, he, left, sentinelAddr]

/-- What is taken of the request of an op comes first in the course from that op on. -/
theorem complete_left {index waited : Nat} {op : BusOp} {rest : List BusOp}
    (hmis : m.mismatch = none) (hstate : m.state = .op index waited)
    (hdrop : m.ops.drop index = op :: rest)
    (hans : Transaction.Answered reply reads (takes q op)) :
    BusOp.course m.sentinels reply reads (op :: rest) =
      Transaction.ahead (takes q op) ((m.complete q index waited op).left reply
        (reads + ((takes q op).filterMap Transaction.returned).length)) := by
  have hstay : m.left reply reads = BusOp.course m.sentinels reply reads (op :: rest) := by
    rw [left_of_op hstate, hdrop]
  have hnext : (m.advance index).left reply reads = BusOp.course m.sentinels reply reads rest :=
    advance_course hmis hdrop
  cases op with
  | read addr expect =>
    by_cases hv : q.readDataValid = true
    · have htakes : takes q (.read addr expect) = [.read addr q.readData] := if_pos hv
      rw [htakes] at hans ⊢
      exact complete_read_left hmis hdrop hv (hans 0 q.readData rfl)
    · have htakes : takes q (.read addr expect) = [] := if_neg hv
      have hcomplete : m.complete q index waited (.read addr expect) = m := if_neg hv
      rw [htakes, hcomplete]
      exact hstay.symm
  | write addr data strobe =>
    by_cases hv : q.writeRespValid = true
    · have htakes : takes q (.write addr data strobe) = [.write addr data strobe] := if_pos hv
      rw [htakes, complete, if_pos hv]
      funext n
      cases n with
      | zero => rfl
      | succ n => exact (congrFun hnext n).symm
    · have htakes : takes q (.write addr data strobe) = [] := if_neg hv
      have hcomplete : m.complete q index waited (.write addr data strobe) = m := if_neg hv
      rw [htakes, hcomplete]
      exact hstay.symm
  | idle cycles =>
    change BusOp.course m.sentinels reply reads (.idle cycles :: rest) =
      (m.complete q index waited (.idle cycles)).left reply reads
    rw [complete]
    split
    next => exact hnext.symm
    next => rw [left, ← hdrop]
  | finish => rfl

/-- A master at its sentinel goes on reading it. -/
theorem sentinel_left (hstate : m.state = .sentinel)
    (hans : Transaction.Answered reply reads (takes q (.read m.sentinelAddr none))) :
    m.left reply reads = Transaction.ahead (takes q (.read m.sentinelAddr none)) (m.left reply
      (reads + ((takes q (.read m.sentinelAddr none)).filterMap Transaction.returned).length)) := by
  by_cases hv : q.readDataValid = true
  · have htakes : takes q (.read m.sentinelAddr none) = [.read m.sentinelAddr q.readData] :=
      if_pos hv
    rw [htakes] at hans ⊢
    have hreply : reply reads = q.readData := hans 0 q.readData rfl
    funext n
    rw [left_of_sentinel hstate]
    cases n with
    | zero =>
      rw [Nat.add_zero, hreply]
      rfl
    | succ n =>
      change _ = m.left reply (reads + 1) n
      rw [left_of_sentinel hstate, Nat.add_right_comm, Nat.add_assoc]
  · have htakes : takes q (.read m.sentinelAddr none) = [] := if_neg hv
    rw [htakes]
    rfl

/-- What is taken of the request of the master comes first in what was left of its course. -/
theorem next_left (hmis : m.mismatch ≠ none → m.state = .sentinel)
    (hans : Transaction.Answered reply reads (takes q m.asked)) :
    m.left reply reads = Transaction.ahead (takes q m.asked) ((m.next q).left reply
      (reads + ((takes q m.asked).filterMap Transaction.returned).length)) := by
  have hnone (h : m.state ≠ .sentinel) : m.mismatch = none := by
    by_contra hne
    exact h (hmis hne)
  cases hstate : m.state with
  | reset =>
    have hasked : m.asked = .finish := by rw [asked, hstate]
    have hnext : m.next q = m.settle 0 m.ops := by rw [next, hstate]; rfl
    have hdrop : m.ops.drop 0 = m.ops := rfl
    rw [hasked, hnext, left_of_reset hstate]
    exact (settle_left (hnone (by simp [hstate])) hdrop).symm
  | op index waited =>
    cases hop : m.ops[index]? with
    | none =>
      have hasked : m.asked = .finish := by simp [asked, hstate, hop]
      have hnext : m.next q = m := by simp [next, hstate, hop]
      rw [hasked, hnext]
      rfl
    | some op =>
      have hasked : m.asked = op := by simp [asked, hstate, hop]
      have hnext : m.next q = m.complete q index waited op := by simp [next, hstate, hop]
      obtain ⟨hlt, hget⟩ := List.getElem?_eq_some_iff.mp hop
      have hdrop : m.ops.drop index = op :: m.ops.drop (index + 1) := by
        rw [← hget]
        exact List.drop_eq_getElem_cons hlt
      rw [hasked] at hans ⊢
      rw [hnext, ← complete_left (hnone (by simp [hstate])) hstate hdrop hans, left_of_op hstate,
        hdrop]
  | sentinel =>
    have hasked : m.asked = .read m.sentinelAddr none := by rw [asked, hstate]
    have hnext : m.next q = m := by rw [next, hstate]
    rw [hasked] at hans ⊢
    rw [hnext]
    exact sentinel_left hstate hans
  | finished =>
    have hasked : m.asked = .finish := by rw [asked, hstate]
    have hnext : m.next q = m := by rw [next, hstate]
    rw [hasked, hnext]
    rfl

/-- All that a rising edge can make of a master. -/
inductive Move (p : Pins) (m : Master) : Master → Prop
  | stays : m.state ≠ .reset → Move p m m
  | enters : m.state = .reset → Move p m (m.enter 0)
  | advances {index waited op} : m.state = .op index waited → m.ops[index]? = some op →
      Move p m (m.advance index)
  | waits {index waited cycles} : m.state = .op index waited →
      m.ops[index]? = some (.idle cycles) → waited + 1 < cycles.toNat →
      Move p m { m with state := .op index (waited + 1) }
  | mismatches {index waited addr expected} : m.state = .op index waited →
      m.ops[index]? = some (.read addr (some expected)) → p.readData ≠ expected →
      Move p m { m with mismatch := some ⟨index, addr, expected, p.readData⟩, state := .sentinel }
  | finishes {index waited} : m.state = .op index waited → m.ops[index]? = some .finish →
      Move p m { m with state := .finished }

theorem complete_move {index waited : Nat} {op : BusOp} (hstate : m.state = .op index waited)
    (hop : m.ops[index]? = some op) : Move p m (m.complete p index waited op) := by
  have hstays : Move p m m := .stays (by simp [hstate])
  have hadvances : Move p m (m.advance index) := .advances hstate hop
  cases op with
  | read addr expect =>
    simp only [complete]
    split
    next =>
      cases expect with
      | none => exact hadvances
      | some expected =>
        simp only
        split
        next => exact hadvances
        next hne => exact .mismatches hstate hop (Ne.symm hne)
    next => exact hstays
  | write addr data strobe =>
    simp only [complete]
    split
    next => exact hadvances
    next => exact hstays
  | idle cycles =>
    simp only [complete]
    split
    next => exact hadvances
    next hlt => exact .waits hstate hop (Nat.lt_of_not_le hlt)
  | finish => exact .finishes hstate hop

theorem next_move : Move p m (m.next p) := by
  unfold next
  cases hstate : m.state with
  | reset => exact .enters hstate
  | op index waited =>
    simp only
    cases hop : m.ops[index]? with
    | none => exact .stays (by simp [hstate])
    | some op => exact complete_move hstate hop
  | sentinel => exact .stays (by simp [hstate])
  | finished => exact .stays (by simp [hstate])

/-- Only a wrong word sends the master to its sentinel early. -/
theorem next_mismatch (hmis : m.mismatch ≠ none → m.state = .sentinel) :
    (m.next q).mismatch ≠ none → (m.next q).state = .sentinel := by
  have hmove := next_move (p := q) (m := m)
  generalize m.next q = n at hmove
  intro hne
  cases hmove with
  | stays => exact hmis hne
  | mismatches => rfl
  | enters hstate =>
    have hkeep : (m.enter 0).mismatch = m.mismatch := settle_mismatch ..
    simp [hmis (hkeep ▸ hne)] at hstate
  | advances hstate => simp [hmis (advance_mismatch _ ▸ hne)] at hstate
  | waits hstate => simp [hmis hne] at hstate
  | finishes hstate => simp [hmis hne] at hstate

/-- Only a read and a write ask for something. -/
theorem asked_of_pending (h : (m.issue p).requests.pending = true) :
    (∃ addr expect, m.asked = .read addr expect) ∨
      ∃ addr data strobe, m.asked = .write addr data strobe := by
  rw [issue_eq] at h
  cases hop : m.asked with
  | read addr expect => exact .inl ⟨addr, expect, rfl⟩
  | write addr data strobe => exact .inr ⟨addr, data, strobe, rfl⟩
  | idle cycles => simp [hop, request, Pins.clearRequests, Pins.requests, Requests.pending] at h
  | finish => simp [hop, request, Pins.clearRequests, Pins.requests, Requests.pending] at h

/-- A request that is not taken is what the master goes on with. -/
theorem next_of_untaken (hpending : (m.issue p).requests.pending = true)
    (htakes : takes q m.asked = []) : m.next q = m := by
  cases hstate : m.state with
  | reset =>
    have hasked : m.asked = .finish := by rw [asked, hstate]
    rcases asked_of_pending hpending with ⟨_, _, hop⟩ | ⟨_, _, _, hop⟩ <;>
      exact absurd (hasked.symm.trans hop) (by simp)
  | op index waited =>
    cases hop : m.ops[index]? with
    | none => simp [next, hstate, hop]
    | some op =>
      have hasked : m.asked = op := by simp [asked, hstate, hop]
      have hnext : m.next q = m.complete q index waited op := by simp [next, hstate, hop]
      rw [hasked] at htakes
      rw [hnext]
      rcases asked_of_pending hpending with ⟨addr, expect, hread⟩ | ⟨addr, data, strobe, hwrite⟩
      · obtain rfl := hasked.symm.trans hread
        have hv : ¬ q.readDataValid = true := by
          intro hv
          rw [takes, if_pos hv] at htakes
          cases htakes
        exact if_neg hv
      · obtain rfl := hasked.symm.trans hwrite
        have hv : ¬ q.writeRespValid = true := by
          intro hv
          rw [takes, if_pos hv] at htakes
          cases htakes
        exact if_neg hv
  | sentinel => rw [next, hstate]
  | finished => rw [next, hstate]

end Master

end BusBench

import BusBench.Device
import BusBench.Script
import BusBench.Sentinel

namespace BusBench

/-- What the master is about. -/
inductive MasterState where
  | reset
  | op (index waited : Nat)
  | sentinel
  | finished
  deriving DecidableEq, Repr

/-- A read that returned another word than the script expects. -/
structure Mismatch where
  op : Nat
  addr : Word
  expected : Word
  actual : Word
  deriving DecidableEq, Repr

/-- A bus master that plays a script, then reads a sentinel. -/
structure Master where
  ops : List BusOp
  sentinels : Sentinels
  state : MasterState := .reset
  lastClock : Bool := false
  mismatch : Option Mismatch := none
  completed : Nat := 0
  finalized : Bool := false
  deriving DecidableEq, Repr

namespace Master

/-- Settles on the first of the remaining ops that takes time; an idle of no cycles
completes at once. -/
def settle (m : Master) (index : Nat) : List BusOp → Master
  | [] => { m with state := .sentinel }
  | .finish :: _ => { m with state := .finished }
  | .idle cycles :: rest =>
    if cycles = 0 then settle { m with completed := m.completed + 1 } (index + 1) rest
    else { m with state := .op index 0 }
  | _ :: _ => { m with state := .op index 0 }

/-- Turns to the op at `index`. -/
def enter (m : Master) (index : Nat) : Master := m.settle index (m.ops.drop index)

/-- Counts the op at `index` as done and turns to the next one. -/
def advance (m : Master) (index : Nat) : Master :=
  { m with completed := m.completed + 1 }.enter (index + 1)

/-- Takes the response to the request of an op, if there is one. -/
def complete (m : Master) (p : Pins) (index waited : Nat) : BusOp → Master
  | .read addr expect =>
    if p.readDataValid then
      match expect with
      | some expected =>
        if expected = p.readData then m.advance index
        else { m with mismatch := some ⟨index, addr, expected, p.readData⟩, state := .sentinel }
      | none => m.advance index
    else m
  | .write _ _ _ => if p.writeRespValid then m.advance index else m
  | .idle cycles =>
    if cycles.toNat ≤ waited + 1 then m.advance index
    else { m with state := .op index (waited + 1) }
  | .finish => { m with state := .finished }

/-- What a rising edge makes of the state. -/
def next (m : Master) (p : Pins) : Master :=
  match m.state with
  | .reset => m.enter 0
  | .op index waited =>
    match m.ops[index]? with
    | some op => m.complete p index waited op
    | none => m
  | .sentinel => m
  | .finished => m

/-- The sentinel to read: the fail address after a mismatch. -/
def sentinelAddr (m : Master) : Word :=
  if m.mismatch.isSome then m.sentinels.fail else m.sentinels.pass

/-- Asserts the request of an op on an idle bus. -/
def request (p : Pins) : BusOp → Pins
  | .read addr _ => { p with readAddrValid := true, readAddr := addr }
  | .write addr data strobe =>
    { p with
      writeAddrValid := true
      writeAddr := addr
      writeDataValid := true
      writeData := data
      writeStrobe := strobe }
  | .idle _ => p
  | .finish => p

/-- Drives the request of the current state. -/
def issue (m : Master) (p : Pins) : Pins :=
  match m.state with
  | .op index _ =>
    match m.ops[index]? with
    | some op => request p.clearRequests op
    | none => p.clearRequests
  | .sentinel => { p.clearRequests with readAddrValid := true, readAddr := m.sentinelAddr }
  | .reset => p.clearRequests
  | .finished => p.clearRequests

/-- One evaluation: reset wins, else a rising edge moves the script on. -/
def evaluate (m : Master) (p : Pins) : Master × Pins :=
  let rising := p.clock && !m.lastClock
  let m := { m with lastClock := p.clock }
  if p.reset then ({ m with state := .reset }, p.clearRequests)
  else if rising then
    let m := m.next p
    (m, m.issue p)
  else (m, p)

/-- The script stopped at a finish op. -/
def finished (m : Master) : Bool := m.state == .finished

/-- The master as a device. -/
def device : Device Master where
  evaluate := evaluate
  finished m _ := m.finished
  finalize m p := ({ m with finalized := true }, p)

end Master

end BusBench

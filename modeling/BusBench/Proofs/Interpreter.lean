import BusBench.Proofs.RunLaw
import BusBench.Script

namespace BusBench

/-- How a script ends, and at which op unless it is played to the end. -/
inductive Ending where
  | completed
  | finish (index : Nat)
  | sentinel (index : Nat) (verdict : Verdict)
  | mismatch (index : Nat)
  deriving DecidableEq, Repr

def Ending.outcome : Ending → Outcome
  | .completed => .pass
  | .finish _ => .fail .noVerdict
  | .sentinel _ v => v.outcome
  | .mismatch _ => .fail .sentinel

/-- What a script leaves behind. -/
structure Finale where
  ending : Ending
  memory : Memory
  reads : Nat
  writes : Nat

namespace BusOp

/-- Plays ops on a memory one after the other, without any clock; `index` ops, `reads` and
`writes` came before. The end of the script reads the pass sentinel, a wrong word the fail one. -/
def play (s : Sentinels) (index : Nat) (m : Memory) (reads writes : Nat) : List BusOp → Finale
  | [] => ⟨.completed, m, reads + 1, writes⟩
  | .finish :: _ => ⟨.finish index, m, reads, writes⟩
  | .idle _ :: ops => play s (index + 1) m reads writes ops
  | .write addr data strobe :: ops =>
    play s (index + 1) (m.write addr data strobe) reads (writes + 1) ops
  | .read addr expect :: ops =>
    if addr = s.pass then ⟨.sentinel index .pass, m, reads + 1, writes⟩
    else if addr = s.fail then ⟨.sentinel index .fail, m, reads + 1, writes⟩
    else if expect.all (· = m.read addr) then play s (index + 1) m (reads + 1) writes ops
    else ⟨.mismatch index, m, reads + 2, writes⟩

/-- The rising edges that an op takes. -/
def cost : BusOp → Nat
  | read _ _ => 1
  | write _ _ _ => 1
  | idle cycles => cycles.toNat
  | finish => 0

/-- The rising edges that the ops before one take. -/
def costBefore (ops : List BusOp) (index : Nat) : Nat := ((ops.take index).map cost).sum

end BusOp

/-- The last rising edge of a script, counted from 0. -/
def Ending.edge (ops : List BusOp) : Ending → Nat
  | .completed => BusOp.costBefore ops ops.length + 1
  | .finish i => BusOp.costBefore ops i
  | .sentinel i _ => BusOp.costBefore ops i + 1
  | .mismatch i => BusOp.costBefore ops i + 2

namespace BusOp

variable {ops rest : List BusOp} {op : BusOp} {i : Nat}

theorem getElem?_of_drop (h : ops.drop i = op :: rest) : ops[i]? = some op := by
  have h0 : (ops.drop i)[0]? = some op := by rw [h]; rfl
  simpa using h0

theorem costBefore_succ (h : ops.drop i = op :: rest) :
    costBefore ops (i + 1) = costBefore ops i + op.cost := by
  unfold costBefore
  rw [List.take_add_one, getElem?_of_drop h]
  simp

theorem costBefore_past (h : ops.drop i = []) : costBefore ops ops.length = costBefore ops i := by
  unfold costBefore
  rw [List.take_length, List.take_of_length_le (List.drop_eq_nil_iff.mp h)]

end BusOp

end BusBench

import BusBench.Master
import BusBench.Proofs.Interpreter
import BusBench.Proofs.Service

namespace BusBench

/-- What only a rising edge changes of a bench that plays a script. -/
structure View where
  device : Master
  bus : Bus
  verdict : Option Verdict

namespace View

variable {s : Sentinels} {ops : List BusOp} {v : View} {i w t : Nat}

/-- A rising edge: the bus is served, the sentinels are watched, the script moves on. -/
def edge (s : Sentinels) (t : Nat) (v : View) : View :=
  let bus := v.bus.respond t
  let device := v.device.next bus.pins
  { device, bus := { bus with pins := device.issue bus.pins }, verdict := s.latch bus.pins v.verdict }

/-- The pins ask for what the master wants. -/
def Issued (v : View) : Prop := ∃ p, v.bus.pins = v.device.issue p

theorem edge_issued : (v.edge s t).Issued := ⟨_, rfl⟩

/-- The master has turned to op `index`, which it may find past. -/
structure Turned (s : Sentinels) (ops : List BusOp) (index : Nat) (v : View) : Prop where
  device : ∃ m : Master, m.ops = ops ∧ m.sentinels = s ∧ m.mismatch = none ∧
    v.device = m.settle index (ops.drop index)
  issued : v.Issued
  verdict : v.verdict = none

/-- The master is about op `index` since `waited` edges. -/
structure Working (s : Sentinels) (ops : List BusOp) (index waited : Nat) (v : View) : Prop where
  ops : v.device.ops = ops
  sentinels : v.device.sentinels = s
  mismatch : v.device.mismatch = none
  state : v.device.state = .op index waited
  issued : v.Issued
  verdict : v.verdict = none

/-- Nothing in the view ends the run. -/
def Open (v : View) : Prop := v.verdict = none ∧ v.device.state ≠ .finished

/-- The view ends the run, and as it is told. -/
structure Concluded (f : Finale) (v : View) : Prop where
  outcome : (∃ d, v.verdict = some d ∧ d.outcome = f.ending.outcome) ∨
    (v.verdict = none ∧ v.device.state = .finished ∧ f.ending.outcome = .fail .noVerdict)
  memory : v.bus.memory = f.memory
  reads : v.bus.stats.reads = f.reads
  writes : v.bus.stats.writes = f.writes

theorem edge_memory : (v.edge s t).bus.memory =
    if Bus.writes v.bus.pins then
      v.bus.memory.write v.bus.pins.writeAddr v.bus.pins.writeData v.bus.pins.writeStrobe
    else v.bus.memory := Bus.respond_memory t v.bus

theorem edge_reads : (v.edge s t).bus.stats.reads =
    v.bus.stats.reads + v.bus.pins.readAddrValid.toNat := Bus.respond_reads t v.bus

theorem edge_writes : (v.edge s t).bus.stats.writes =
    v.bus.stats.writes + (Bus.writes v.bus.pins).toNat := Bus.respond_writes t v.bus

theorem edge_device : (v.edge s t).device = v.device.next (v.bus.respond t).pins := rfl

theorem edge_verdict (h : v.verdict = none) : (v.edge s t).verdict = s.sees v.bus.pins := by
  have hl : (v.edge s t).verdict = s.latch (v.bus.respond t).pins v.verdict := rfl
  rw [hl, h, Bus.respond_pins]
  rfl

theorem sees_none {p : Pins} (h : p.readAddrValid = false) : s.sees p = none := by
  simp [Sentinels.sees, h]

theorem Working.turned (hv : v.Working s ops i w) (hnext : (v.edge s t).device = v.device.advance i)
    (hverdict : (v.edge s t).verdict = none) : (v.edge s t).Turned s ops (i + 1) := by
  refine ⟨⟨{ v.device with completed := v.device.completed + 1 }, hv.ops, hv.sentinels,
    hv.mismatch, ?_⟩, edge_issued, hverdict⟩
  rw [hnext, ← hv.ops]
  rfl

/-- Idling takes an edge and nothing else. -/
theorem Working.idle {cycles : UInt32} (hv : v.Working s ops i w)
    (hop : ops[i]? = some (.idle cycles)) (t : Nat) :
    (v.edge s t).bus.memory = v.bus.memory ∧
      (v.edge s t).bus.stats.reads = v.bus.stats.reads ∧
      (v.edge s t).bus.stats.writes = v.bus.stats.writes ∧
      (if cycles.toNat ≤ w + 1 then (v.edge s t).Turned s ops (i + 1)
        else (v.edge s t).Working s ops i (w + 1)) := by
  obtain ⟨p, hp⟩ := hv.issued
  have hpins : v.bus.pins = p.clearRequests := by
    simp [hp, Master.issue, hv.state, hv.ops, hop, Master.request]
  have hread : v.bus.pins.readAddrValid = false := by rw [hpins]; rfl
  have hwrite : Bus.writes v.bus.pins = false := by rw [hpins]; rfl
  have hverdict : (v.edge s t).verdict = none := by rw [edge_verdict hv.verdict, sees_none hread]
  have hnext : (v.edge s t).device =
      if cycles.toNat ≤ w + 1 then v.device.advance i
      else { v.device with state := .op i (w + 1) } := by
    simp [edge_device, Master.next, hv.state, hv.ops, hop, Master.complete]
  refine ⟨by simp [edge_memory, hwrite], by simp [edge_reads, hread],
    by simp [edge_writes, hwrite], ?_⟩
  split
  next hle =>
    rw [if_pos hle] at hnext
    exact hv.turned hnext hverdict
  next hlt =>
    rw [if_neg hlt] at hnext
    exact ⟨by rw [hnext]; exact hv.ops, by rw [hnext]; exact hv.sentinels,
      by rw [hnext]; exact hv.mismatch, by rw [hnext], edge_issued, hverdict⟩

/-- A write takes one edge, on which its bytes go into the memory. -/
theorem Working.write {addr data : Word} {strobe : UInt8} (hv : v.Working s ops i w)
    (hop : ops[i]? = some (.write addr data strobe)) (t : Nat) :
    (v.edge s t).bus.memory = v.bus.memory.write addr data strobe ∧
      (v.edge s t).bus.stats.reads = v.bus.stats.reads ∧
      (v.edge s t).bus.stats.writes = v.bus.stats.writes + 1 ∧
      (v.edge s t).Turned s ops (i + 1) := by
  obtain ⟨p, hp⟩ := hv.issued
  have hpins : v.bus.pins = Master.request p.clearRequests (.write addr data strobe) := by
    simp [hp, Master.issue, hv.state, hv.ops, hop]
  have hread : v.bus.pins.readAddrValid = false := by rw [hpins]; rfl
  have hwrite : Bus.writes v.bus.pins = true := by rw [hpins]; rfl
  have hverdict : (v.edge s t).verdict = none := by rw [edge_verdict hv.verdict, sees_none hread]
  have hnext : (v.edge s t).device = v.device.advance i := by
    simp [edge_device, Master.next, hv.state, hv.ops, hop, Master.complete, Bus.respond_pins, hwrite]
  refine ⟨?_, by simp [edge_reads, hread], by simp [edge_writes, hwrite], hv.turned hnext hverdict⟩
  rw [edge_memory, if_pos hwrite, hpins]
  rfl

/-- A read takes one edge, on which the master sees the word and the bench the address. -/
theorem Working.read {addr : Word} {expect : Option Word} (hv : v.Working s ops i w)
    (hop : ops[i]? = some (.read addr expect)) (t : Nat) :
    (v.edge s t).bus.memory = v.bus.memory ∧
      (v.edge s t).bus.stats.reads = v.bus.stats.reads + 1 ∧
      (v.edge s t).bus.stats.writes = v.bus.stats.writes ∧
      (addr = s.pass → (v.edge s t).verdict = some .pass) ∧
      (addr ≠ s.pass → addr = s.fail → (v.edge s t).verdict = some .fail) ∧
      (addr ≠ s.pass → addr ≠ s.fail → (v.edge s t).verdict = none ∧
        if expect.all (· = v.bus.memory.read addr) then (v.edge s t).Turned s ops (i + 1)
        else (v.edge s t).device.sentinels = s ∧ (v.edge s t).device.mismatch ≠ none ∧
          (v.edge s t).device.state = .sentinel) := by
  obtain ⟨p, hp⟩ := hv.issued
  have hpins : v.bus.pins = Master.request p.clearRequests (.read addr expect) := by
    simp [hp, Master.issue, hv.state, hv.ops, hop]
  have hread : v.bus.pins.readAddrValid = true := by rw [hpins]; rfl
  have haddr : v.bus.pins.readAddr = addr := by rw [hpins]; rfl
  have hwrite : Bus.writes v.bus.pins = false := by rw [hpins]; rfl
  have hverdict : (v.edge s t).verdict = s.sees v.bus.pins := edge_verdict hv.verdict
  refine ⟨by simp [edge_memory, hwrite], by simp [edge_reads, hread],
    by simp [edge_writes, hwrite], ?_, ?_, ?_⟩
  · intro hpass
    simp [hverdict, Sentinels.sees, hread, haddr, hpass]
  · intro hpass hfail
    have hne : s.fail ≠ s.pass := hfail ▸ hpass
    simp [hverdict, Sentinels.sees, hread, haddr, hfail, hne]
  · intro hpass hfail
    have hnone : (v.edge s t).verdict = none := by
      simp [hverdict, Sentinels.sees, hread, haddr, hpass, hfail]
    have hnext : (v.edge s t).device =
        v.device.complete (v.bus.respond t).pins i w (.read addr expect) := by
      rw [edge_device, Master.next, hv.state]
      simp only [hv.ops, hop]
    simp only [Master.complete, Bus.respond_pins t v.bus, hread, if_true] at hnext
    refine ⟨hnone, ?_⟩
    cases expect with
    | none => exact hv.turned hnext hnone
    | some e =>
      by_cases he : e = v.bus.memory.read addr
      · have hall : (some e).all (· = v.bus.memory.read addr) = true := by simp [he]
        rw [if_pos hall]
        simp only [haddr, ← he, if_true] at hnext
        exact hv.turned hnext hnone
      · have hall : ¬ (some e).all (· = v.bus.memory.read addr) = true := by simp [he]
        rw [if_neg hall]
        simp only [haddr, he, if_false] at hnext
        exact ⟨by rw [hnext]; exact hv.sentinels, by rw [hnext]; simp, by rw [hnext]⟩

/-- At its sentinel the master asks for it, and the bench sees it on the next edge. -/
theorem edge_of_sentinel (hs : s.pass ≠ s.fail) (hd : v.device.sentinels = s)
    (hstate : v.device.state = .sentinel) (hi : v.Issued) (hv : v.verdict = none) (t : Nat) :
    (v.edge s t).bus.memory = v.bus.memory ∧
      (v.edge s t).bus.stats.reads = v.bus.stats.reads + 1 ∧
      (v.edge s t).bus.stats.writes = v.bus.stats.writes ∧
      (v.edge s t).verdict = some (if v.device.mismatch = none then .pass else .fail) := by
  obtain ⟨p, hp⟩ := hi
  have hpins : v.bus.pins =
      { p.clearRequests with readAddrValid := true, readAddr := v.device.sentinelAddr } := by
    simp [hp, Master.issue, hstate]
  have hread : v.bus.pins.readAddrValid = true := by rw [hpins]
  have haddr : v.bus.pins.readAddr = v.device.sentinelAddr := by rw [hpins]
  have hwrite : Bus.writes v.bus.pins = false := by rw [hpins]; rfl
  refine ⟨by simp [edge_memory, hwrite], by simp [edge_reads, hread],
    by simp [edge_writes, hwrite], ?_⟩
  rw [edge_verdict hv, Sentinels.sees, hread, haddr, Master.sentinelAddr, hd]
  cases v.device.mismatch with
  | none => simp
  | some m => simp [hs.symm]

theorem Working.is_open (h : v.Working s ops i w) : v.Open :=
  ⟨h.verdict, by rw [h.state]; simp⟩

theorem Turned.working {op : BusOp} {rest : List BusOp} (hv : v.Turned s ops i)
    (hdrop : ops.drop i = op :: rest) (hcost : 0 < op.cost) : v.Working s ops i 0 := by
  obtain ⟨m, hops, hsent, hmis, hdev⟩ := hv.device
  have hstate : v.device = { m with state := .op i 0 } := by
    rw [hdev, hdrop]
    cases op with
    | read addr expect => rfl
    | write addr data strobe => rfl
    | idle cycles =>
      have hne : cycles ≠ 0 := by
        rintro rfl
        simp [BusOp.cost] at hcost
      simp [Master.settle, hne]
    | finish => simp [BusOp.cost] at hcost
  exact ⟨by rw [hstate]; exact hops, by rw [hstate]; exact hsent, by rw [hstate]; exact hmis,
    by rw [hstate], hv.issued, hv.verdict⟩

/-- An idle of no cycles is found past at once. -/
theorem Turned.skip {rest : List BusOp} (hv : v.Turned s ops i)
    (hdrop : ops.drop i = .idle 0 :: rest) : v.Turned s ops (i + 1) := by
  obtain ⟨m, hops, hsent, hmis, hdev⟩ := hv.device
  have hrest : ops.drop (i + 1) = rest := by
    rw [← List.tail_drop, hdrop]
    rfl
  refine ⟨⟨{ m with completed := m.completed + 1 }, hops, hsent, hmis, ?_⟩, hv.issued, hv.verdict⟩
  rw [hdev, hdrop, hrest]
  rfl

section

variable {V : Nat → View} {tick : Nat → Nat} {k : Nat} {f : Finale}

/-- From view `k` on nothing ends the run before the last edge of the script, which does. -/
structure Ends (ops : List BusOp) (V : Nat → View) (k : Nat) (f : Finale) : Prop where
  le : k ≤ f.ending.edge ops
  concluded : (V (f.ending.edge ops)).Concluded f
  opened : ∀ j, k ≤ j → j < f.ending.edge ops → (V j).Open

theorem Ends.now (hk : f.ending.edge ops = k) (h : (V k).Concluded f) : Ends ops V k f := by
  subst k
  exact ⟨Nat.le_refl _, h, fun j hlo hhi => absurd hlo (Nat.not_le.mpr hhi)⟩

theorem Ends.before {n : Nat} (h : Ends ops V (k + n) f)
    (hopen : ∀ j, k ≤ j → j < k + n → (V j).Open) : Ends ops V k f := by
  refine ⟨(Nat.le_add_right k n).trans h.le, h.concluded, ?_⟩
  intro j hlo hhi
  rcases Nat.lt_or_ge j (k + n) with hlt | hge
  · exact hopen j hlo hlt
  · exact h.opened j hge hhi

theorem Ends.before_one (h : Ends ops V (k + 1) f) (hv : (V k).Open) : Ends ops V k f := by
  apply h.before
  intro j hlo hhi
  obtain rfl : j = k := by omega
  exact hv

theorem Working.idle_run (step : ∀ k, V (k + 1) = (V k).edge s (tick k)) {cycles : UInt32}
    (hop : ops[i]? = some (.idle cycles)) {left : Nat} (hpos : 0 < left)
    (hleft : w + left = cycles.toNat) (hv : (V k).Working s ops i w) :
    (V (k + left)).Turned s ops (i + 1) ∧
      (V (k + left)).bus.memory = (V k).bus.memory ∧
      (V (k + left)).bus.stats.reads = (V k).bus.stats.reads ∧
      (V (k + left)).bus.stats.writes = (V k).bus.stats.writes ∧
      ∀ j, k ≤ j → j < k + left → (V j).Open := by
  induction left generalizing w k with
  | zero => omega
  | succ left ih =>
    obtain ⟨hm, hr, hw, hnext⟩ := hv.idle hop (tick k)
    rw [← step k] at hm hr hw hnext
    by_cases hl : left = 0
    · subst left
      rw [if_pos (by omega)] at hnext
      refine ⟨hnext, hm, hr, hw, ?_⟩
      intro j hkj hj
      obtain rfl : j = k := by omega
      exact hv.is_open
    · rw [if_neg (by omega)] at hnext
      obtain ⟨ht, hm', hr', hw', hopen⟩ := ih (by omega) (by omega) hnext
      rw [show k + (left + 1) = k + 1 + left by omega]
      refine ⟨ht, hm'.trans hm, hr'.trans hr, hw'.trans hw, ?_⟩
      intro j hkj hj
      rcases Nat.eq_or_lt_of_le hkj with rfl | hlt
      · exact hv.is_open
      · exact hopen j hlt hj

/-- A master at its sentinel ends the run on the next edge. -/
theorem ends_of_sentinel (hs : s.pass ≠ s.fail)
    (step : ∀ k, V (k + 1) = (V k).edge s (tick k)) (hd : (V k).device.sentinels = s)
    (hstate : (V k).device.state = .sentinel) (hi : (V k).Issued) (hv : (V k).verdict = none)
    {e : Ending} (hk : e.edge ops = k + 1)
    (he : e.outcome = if (V k).device.mismatch = none then .pass else .fail .sentinel) :
    Ends ops V k
      ⟨e, (V k).bus.memory, (V k).bus.stats.reads + 1, (V k).bus.stats.writes⟩ := by
  obtain ⟨hm, hr, hw, hverdict⟩ := edge_of_sentinel hs hd hstate hi hv (tick k)
  rw [← step k] at hm hr hw hverdict
  apply Ends.before_one
  · exact .now hk ⟨.inl ⟨_, hverdict, by rw [he]; split <;> rfl⟩, hm, hr, hw⟩
  · exact ⟨hv, by rw [hstate]; simp⟩

/-- From where the master turns to an op, the edges of the bench play the rest of the script. -/
theorem Turned.ends (hs : s.pass ≠ s.fail) (step : ∀ k, V (k + 1) = (V k).edge s (tick k))
    {rest : List BusOp} (hrest : ops.drop i = rest) (hk : k = BusOp.costBefore ops i)
    (hv : (V k).Turned s ops i)
    (hf : BusOp.play s i (V k).bus.memory (V k).bus.stats.reads (V k).bus.stats.writes rest = f) :
    Ends ops V k f := by
  -- by what is left of the script: an op takes its edges from `k` on and turns to the next one
  induction rest generalizing i k with
  | nil =>
    subst f
    obtain ⟨m, _, hsent, hmis, hdev⟩ := hv.device
    rw [hrest] at hdev
    have hedge : Ending.completed.edge ops = k + 1 := by
      rw [Ending.edge, BusOp.costBefore_past hrest, hk]
    apply ends_of_sentinel hs step _ _ hv.issued hv.verdict hedge
    · rw [hdev, if_pos (show (m.settle i []).mismatch = none from hmis)]
      rfl
    · rw [hdev]
      exact hsent
    · rw [hdev]
      rfl
  | cons op rest ih =>
    have hop := BusOp.getElem?_of_drop hrest
    have hcost := BusOp.costBefore_succ hrest
    have hrest' : ops.drop (i + 1) = rest := by
      rw [← List.tail_drop, hrest]
      rfl
    cases op with
    | finish =>
      subst f
      obtain ⟨m, _, _, _, hdev⟩ := hv.device
      rw [hrest] at hdev
      exact .now hk.symm ⟨.inr ⟨hv.verdict, by rw [hdev]; rfl, rfl⟩, rfl, rfl, rfl⟩
    | idle cycles =>
      by_cases hz : cycles = 0
      · subst cycles
        exact ih hrest' (by rw [hcost, hk]; rfl) (hv.skip hrest) hf
      · have hpos : 0 < cycles.toNat := Nat.pos_of_ne_zero fun h => hz (UInt32.toNat_inj.mp h)
        obtain ⟨ht, hm, hr, hw, hopen⟩ :=
          (hv.working hrest hpos).idle_run step hop hpos (Nat.zero_add _)
        exact (ih hrest' (by rw [hcost, hk]; rfl) ht (by rw [hm, hr, hw]; exact hf)).before hopen
    | write addr data strobe =>
      have hwork := hv.working hrest (by simp [BusOp.cost])
      obtain ⟨hm, hr, hw, ht⟩ := hwork.write hop (tick k)
      rw [← step] at hm hr hw ht
      exact (ih hrest' (by rw [hcost, hk]; rfl) ht
        (by rw [hm, hr, hw]; exact hf)).before_one hwork.is_open
    | read addr expect =>
      have hwork := hv.working hrest (by simp [BusOp.cost])
      obtain ⟨hm, hr, hw, hpass, hfail, hother⟩ := hwork.read hop (tick k)
      rw [← step] at hm hr hw hpass hfail hother
      rw [BusOp.play] at hf
      apply Ends.before_one _ hwork.is_open
      -- a sentinel counts before the word that the read expects
      by_cases hp : addr = s.pass
      · rw [if_pos hp] at hf
        subst f
        exact .now (by rw [Ending.edge, hk]) ⟨.inl ⟨.pass, hpass hp, rfl⟩, hm, hr, hw⟩
      rw [if_neg hp] at hf
      by_cases hq : addr = s.fail
      · rw [if_pos hq] at hf
        subst f
        exact .now (by rw [Ending.edge, hk]) ⟨.inl ⟨.fail, hfail hp hq, rfl⟩, hm, hr, hw⟩
      rw [if_neg hq] at hf
      obtain ⟨hnone, hnext⟩ := hother hp hq
      by_cases hall : expect.all (· = (V k).bus.memory.read addr) = true
      · rw [if_pos hall] at hf hnext
        exact ih hrest' (by rw [hcost, hk]; rfl) hnext (by rw [hm, hr, hw]; exact hf)
      · rw [if_neg hall] at hf hnext
        obtain ⟨hsent, hmis, hstate⟩ := hnext
        have hissued : (V (k + 1)).Issued := by rw [step]; exact edge_issued
        have hlast := ends_of_sentinel (e := .mismatch i) hs step hsent hstate hissued hnone
          (by rw [Ending.edge, hk]) (by rw [if_neg hmis]; rfl)
        rw [hm, hr, hw] at hlast
        rw [← hf]
        exact hlast

end

end View

end BusBench

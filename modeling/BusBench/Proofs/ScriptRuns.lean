import BusBench.Proofs.ScriptViews

namespace BusBench

/-- The ticks of a run that a script ends: those up to its last edge. -/
noncomputable def Ending.ticks (s : Schedule) (ops : List BusOp) (e : Ending) : Nat :=
  s.edge (e.edge ops) + 1

theorem Ending.outcome_ne_timeout (e : Ending) : e.outcome ≠ .fail .timeout := by
  cases e with
  | completed => simp [outcome]
  | finish i => simp [outcome]
  | sentinel i v => cases v <;> simp [outcome, Verdict.outcome]
  | mismatch i => simp [outcome]

/-- The first edge after reset turns the master to its first op. -/
theorem View.Held.turned {v : View} {s : Sentinels} (h : v.Held) (hs : v.device.sentinels = s)
    (hm : v.device.mismatch = none) (t : Nat) :
    (v.edge s t).Turned s v.device.ops 0 ∧ (v.edge s t).bus.memory = v.bus.memory ∧
      (v.edge s t).bus.stats = v.bus.stats := by
  have hread : v.bus.pins.readAddrValid = false := by rw [← h.requests]; rfl
  have hbus : v.bus.respond t = v.bus := Bus.respond_of_idle h.requests h.responses t
  have hdevice : (v.edge s t).device = v.device.settle 0 (v.device.ops.drop 0) := by
    rw [edge_device, Master.next, h.state]
    rfl
  have hverdict : (v.edge s t).verdict = none := by
    rw [edge_verdict h.verdict, sees_none hread]
  have hmemory : (v.edge s t).bus.memory = (v.bus.respond t).memory := rfl
  have hstats : (v.edge s t).bus.stats = (v.bus.respond t).stats := rfl
  rw [hmemory, hstats, hbus]
  exact ⟨⟨⟨v.device, rfl, hs, hm, hdevice⟩, edge_issued, hverdict⟩, rfl, rfl⟩

namespace Rig

variable {τ κ : Type} {r : Rig Master τ κ} {b : Bench Master τ κ}

/-- A bench about to play a script from reset on. -/
structure Poised (r : Rig Master τ κ) (ops : List BusOp) (b : Bench Master τ κ) : Prop where
  device : r.device = Master.device
  ops : b.device.ops = ops
  sentinels : b.device.sentinels = r.settings.sentinels
  mismatch : b.device.mismatch = none
  held : b.view.Held
  tick : b.tick = 0
  clock : b.clock = false
  lastClock : b.device.lastClock = false
  phase : b.phase ≠ .halted

theorem poised_fresh (hdev : r.device = Master.device) (ops : List BusOp) (memory : Memory)
    (trace : τ) (coverage : κ) :
    r.Poised ops (.fresh { ops, sentinels := r.settings.sentinels } {} memory trace coverage) :=
  ⟨hdev, rfl, rfl, rfl, ⟨rfl, rfl, rfl, rfl⟩, rfl, rfl, rfl, by simp [Bench.fresh]⟩

namespace Poised

variable {ops : List BusOp} {t : Nat}

theorem after_tick_eq (h : r.Poised ops b) (n : Nat) : (r.after b n).tick = n :=
  after_tick_of_zero h.tick n

theorem rising (h : r.Poised ops b) (n : Nat) :
    ((r.drive (r.after b n)).clock && !(r.after b n).device.lastClock) =
      r.settings.schedule.risesAt (r.after b n).tick := by
  rw [h.after_tick_eq]
  exact after_edge h.device h.tick h.clock h.lastClock n

theorem view_in_reset (h : r.Poised ops b) {n : Nat} (hn : n ≤ r.settings.schedule.resetTicks + 1) :
    (r.after b n).view = b.view := by
  induction n with
  | zero => rfl
  | succ n ih =>
    have hb := ih (by omega)
    rw [← hb]
    apply view_held h.device
    · rw [h.after_tick_eq]
      exact decide_eq_true (show n ≤ r.settings.schedule.resetTicks by omega)
    · rw [hb]
      exact h.held

theorem view_between (h : r.Poised ops b) {m n : Nat} (hm : r.settings.schedule.resetTicks < m)
    (hmn : m ≤ n) (flat : ∀ t, m ≤ t → t < n → r.settings.schedule.risesAt t = false) :
    (r.after b n).view = (r.after b m).view := by
  induction n, hmn using Nat.le_induction with
  | base => rfl
  | succ n hmn ih =>
    rw [← ih fun t hlo hhi => flat t hlo (by omega)]
    apply view_flat h.device
    · rw [h.after_tick_eq]
      exact decide_eq_false (show ¬ n ≤ r.settings.schedule.resetTicks by omega)
    · rw [h.after_tick_eq]
      exact flat n hmn (Nat.lt_add_one n)
    · exact h.rising n

theorem view_on_edge (h : r.Poised ops b) (hp : 0 < r.settings.schedule.halfPeriod) (k : Nat) :
    (r.after b (r.settings.schedule.edge k + 1)).view =
      (r.after b (r.settings.schedule.edge k)).view.edge r.settings.sentinels
        (r.settings.schedule.edge k) := by
  obtain ⟨hreset, hrise⟩ := Schedule.edge_rises hp k
  have hedge := view_edge (b := r.after b (r.settings.schedule.edge k)) h.device
    (by rw [h.after_tick_eq]; exact decide_eq_false (by omega))
    (by rw [h.after_tick_eq]; exact hrise) (h.rising _)
  rwa [h.after_tick_eq] at hedge

theorem view_before_edges (h : r.Poised ops b) (ht : t ≤ r.settings.schedule.edge 0) :
    (r.after b t).view = b.view := by
  rcases Nat.lt_or_ge (r.settings.schedule.resetTicks + 1) t with hlt | hle
  · rw [← h.view_in_reset (Nat.le_refl (r.settings.schedule.resetTicks + 1))]
    apply h.view_between (Nat.lt_add_one _) hlt.le
    intro u hlo hhi
    exact Schedule.no_edge_before (by omega) (by omega)
  · exact h.view_in_reset hle

theorem view_up_to_edge (h : r.Poised ops b) (hp : 0 < r.settings.schedule.halfPeriod) {k : Nat}
    (hlo : r.settings.schedule.edge k < t) (hhi : t ≤ r.settings.schedule.edge (k + 1)) :
    (r.after b t).view = (r.after b (r.settings.schedule.edge k + 1)).view := by
  have hreset := (Schedule.edge_rises hp k).1
  apply h.view_between (by omega) hlo
  intro u hku hut
  have hlt : r.settings.schedule.edge k < u := hku
  exact Schedule.no_edge_between (by omega) hlt (by omega)

/-- The views past the edges follow one another as the edges do. -/
theorem view_past_edge (h : r.Poised ops b) (hp : 0 < r.settings.schedule.halfPeriod) (k : Nat) :
    (r.after b (r.settings.schedule.edge (k + 1) + 1)).view =
      (r.after b (r.settings.schedule.edge k + 1)).view.edge r.settings.sentinels
        (r.settings.schedule.edge (k + 1)) := by
  rw [h.view_on_edge hp,
    h.view_up_to_edge hp (Schedule.edge_lt_edge hp (Nat.lt_add_one k)) (Nat.le_refl _)]

/-- Nothing of a script ends its run before the interpreter says, and there it is as it says. -/
theorem plays (h : r.Poised ops b) (hset : r.settings.check = .ok ()) {f : Finale}
    (hf : BusOp.play r.settings.sentinels 0 b.bus.memory b.bus.stats.reads b.bus.stats.writes ops = f) :
    (r.after b (f.ending.ticks r.settings.schedule ops)).view.Concluded f ∧
      ∀ t < f.ending.ticks r.settings.schedule ops, (r.after b t).view.Open := by
  obtain ⟨hs, hp, _⟩ := Settings.check_eq_ok_iff.mp hset
  have hfirst := h.view_on_edge hp 0
  rw [h.view_before_edges (Nat.le_refl _)] at hfirst
  obtain ⟨hturned, hm, hstats⟩ := h.held.turned h.sentinels h.mismatch (r.settings.schedule.edge 0)
  rw [← hfirst, show b.view.device.ops = ops from h.ops] at hturned
  rw [← hfirst] at hm hstats
  rw [show b.bus.memory = b.view.bus.memory from rfl, show b.bus.stats = b.view.bus.stats from rfl,
    ← hm, ← hstats] at hf
  obtain ⟨_, hconc, hopen⟩ := hturned.ends
    (V := fun k => (r.after b (r.settings.schedule.edge k + 1)).view) hs (h.view_past_edge hp)
    rfl rfl hf
  refine ⟨hconc, ?_⟩
  -- between edges nothing changes, so it is enough that the views past the edges are open
  intro t ht
  rcases Schedule.edge_cases hp t with hle | ⟨k, hlo, hhi⟩
  · rw [h.view_before_edges hle]
    exact ⟨h.held.verdict, by rw [h.held.state]; simp⟩
  · rw [h.view_up_to_edge hp hlo hhi]
    apply hopen k (Nat.zero_le k)
    by_contra hge
    have hmono := Nat.nth_monotone (Schedule.edges_infinite hp) (Nat.le_of_not_lt hge)
    have hlast : t ≤ r.settings.schedule.edge (f.ending.edge ops) := Nat.le_of_lt_succ ht
    exact absurd (hlast.trans hmono) (Nat.not_le.mpr hlo)

theorem stops_iff (h : r.Poised ops b) (n : Nat) :
    r.Stops (r.after b n) ↔ ¬ (r.after b n).view.Open ∨ r.settings.timeout ≤ n := by
  have hf : r.FinishedAt b n ↔ (r.after b n).view.device.state = .finished := by
    rw [FinishedAt, h.device]
    exact beq_iff_eq
  have hv : (r.after b n).view.verdict = (r.after b n).verdict := rfl
  rw [stops_after_iff h.phase h.tick, hf, View.Open, hv]
  tauto

/-- A run of a script ends with the script or with its time, whichever comes first. -/
theorem first_stop (h : r.Poised ops b) {n last : Nat} (hn : r.Stops (r.after b n))
    (first : ∀ m < n, ¬ r.Stops (r.after b m)) (hlast : ¬ (r.after b last).view.Open)
    (hopen : ∀ t < last, (r.after b t).view.Open) : n = min last r.settings.timeout := by
  apply le_antisymm
  · rw [le_min_iff]
    constructor
    · by_contra hlt
      exact first last (Nat.lt_of_not_le hlt) ((h.stops_iff last).mpr (.inl hlast))
    · by_contra hlt
      exact first _ (Nat.lt_of_not_le hlt) ((h.stops_iff _).mpr (.inr le_rfl))
  · rcases (h.stops_iff n).mp hn with hclosed | ht
    · have hle : last ≤ n := by
        by_contra hlt
        exact hclosed (hopen n (Nat.lt_of_not_le hlt))
      exact (min_le_left ..).trans hle
    · exact (min_le_right ..).trans ht

theorem concluded_not_open {v : View} {f : Finale} (h : v.Concluded f) : ¬ v.Open := by
  rintro ⟨hverdict, hstate⟩
  rcases h.outcome with ⟨d, hd, _⟩ | ⟨_, hf, _⟩
  · rw [hverdict] at hd
    cases hd
  · exact hstate hf

theorem conclude_outcome (h : r.Poised ops b) {n : Nat} {f : Finale}
    (hf : (r.after b n).view.Concluded f) : (r.conclude (r.after b n)).outcome = f.ending.outcome := by
  rcases hf.outcome with ⟨d, hd, ho⟩ | ⟨hnone, hstate, ho⟩
  · rw [← ho]
    exact outcome_of_verdict hd
  · rw [ho]
    apply outcome_of_finish hnone
    rw [h.device]
    exact beq_iff_eq.mpr hstate

/-- What a run of a script reports, should it report. -/
theorem reports (h : r.Poised ops b) (hset : r.settings.check = .ok ()) (hb : b.report = none)
    {report : Report} {final : Bench Master τ κ} (hrun : r.run b = (.ok report, final)) {f : Finale}
    (hf : BusOp.play r.settings.sentinels 0 b.bus.memory b.bus.stats.reads b.bus.stats.writes ops = f) :
    (f.ending.ticks r.settings.schedule ops ≤ r.settings.timeout →
      report.ticks = f.ending.ticks r.settings.schedule ops ∧ report.outcome = f.ending.outcome ∧
        final.bus.memory = f.memory ∧ report.bus.reads = f.reads ∧ report.bus.writes = f.writes) ∧
      (r.settings.timeout < f.ending.ticks r.settings.schedule ops →
        report.ticks = r.settings.timeout ∧ report.outcome = .fail .timeout) := by
  obtain ⟨hconc, hopen⟩ := h.plays hset hf
  obtain ⟨n, hn, first, rfl, hmem⟩ := run_ok hb hrun
  have hmin := h.first_stop hn first (concluded_not_open hconc) hopen
  have hticks : (r.conclude (r.after b n)).ticks = n := h.after_tick_eq n
  rw [hticks]
  constructor
  · intro hle
    obtain rfl : n = f.ending.ticks r.settings.schedule ops := by rw [hmin, min_eq_left hle]
    exact ⟨rfl, h.conclude_outcome hconc, hmem.trans hconc.memory, hconc.reads, hconc.writes⟩
  · intro hlt
    obtain rfl : n = r.settings.timeout := by rw [hmin, min_eq_right hlt.le]
    obtain ⟨hnone, hstate⟩ := hopen _ hlt
    refine ⟨rfl, outcome_of_timeout hnone ?_ (h.after_tick_eq _).ge⟩
    rw [h.device]
    exact fun hf => hstate (beq_iff_eq.mp hf)

end Poised

/-- A script is timed to the tick: it runs as long as the edges of its ops take, and one that
would run longer than it may ends exactly with its time. -/
theorem script_ticks (hdev : r.device = Master.device) (hset : r.settings.check = .ok ())
    {memory : Memory} (hmem : memory.lo ≤ memory.hi) (ops : List BusOp) (trace : τ) (coverage : κ) :
    ∃ b, r.start { ops, sentinels := r.settings.sentinels } {} memory trace coverage = .ok b ∧
      (∀ good, r.Quiet good → good trace → ∃ report final, r.run b = (.ok report, final)) ∧
      ∀ report final, r.run b = (.ok report, final) →
        ((BusOp.play r.settings.sentinels 0 memory 0 0 ops).ending.ticks r.settings.schedule ops ≤
            r.settings.timeout →
          report.ticks =
              (BusOp.play r.settings.sentinels 0 memory 0 0 ops).ending.ticks
                r.settings.schedule ops ∧
            report.outcome ≠ .fail .timeout) ∧
        (r.settings.timeout <
            (BusOp.play r.settings.sentinels 0 memory 0 0 ops).ending.ticks r.settings.schedule ops →
          report.ticks = r.settings.timeout ∧ report.outcome = .fail .timeout) := by
  have hpoised := poised_fresh hdev ops memory trace coverage
  refine ⟨_, start_eq_ok_iff.mpr ⟨hset, hmem, rfl⟩, ?_, ?_⟩
  · intro good quiet hgood
    obtain ⟨_, _, _, _, hrun⟩ := run_quiet (b := .fresh { ops, sentinels := r.settings.sentinels } {}
      memory trace coverage) quiet hgood rfl
    exact ⟨_, _, hrun⟩
  · intro report final hrun
    obtain ⟨hends, hover⟩ := hpoised.reports hset rfl hrun rfl
    refine ⟨?_, hover⟩
    intro hle
    obtain ⟨hticks, houtcome, _⟩ := hends hle
    exact ⟨hticks, by rw [houtcome]; exact Ending.outcome_ne_timeout _⟩

/-- A rig for scripts whose edges after reset are on the even ticks from 2 on. -/
def evenRig : Rig Master Unit Unit :=
  ⟨Master.device, .none, .none, ⟨⟨0x10, 0x14⟩, 11, ⟨1, 0⟩⟩⟩

/-- Stores a word, idles for no time and then for one edge, and loads the word again. -/
def storeAndLoad : List BusOp :=
  [.write 0x20 0xcafe 3, .idle 0, .idle 1, .read 0x22 (some 0xcafe)]

theorem script_ticks_at_timeout :
    evenRig.settings.check = .ok () ∧ (Memory.empty 0 0xff 0).lo ≤ (Memory.empty 0 0xff 0).hi ∧
      ∃ b report final, evenRig.start { ops := storeAndLoad, sentinels := ⟨0x10, 0x14⟩ } {}
          (.empty 0 0xff 0) () () = .ok b ∧
        evenRig.run b = (.ok report, final) ∧ report.ticks = 11 ∧ evenRig.settings.timeout = 11 ∧
        report.outcome ≠ .fail .timeout := by
  have quiet : evenRig.Quiet fun _ => True := quiet_of_no_sinks ..
  obtain ⟨b, hstart, hruns, htimes⟩ := script_ticks (r := evenRig) rfl rfl
    (by decide : (Memory.empty 0 0xff 0).lo ≤ (Memory.empty 0 0xff 0).hi) storeAndLoad () ()
  obtain ⟨report, final, hrun⟩ := hruns (fun _ => True) quiet trivial
  have hzero : evenRig.settings.schedule.edge 0 = 2 := by
    apply Schedule.edge_zero_eq (by decide) (by decide)
    intro u hlo hhi
    obtain rfl : u = 1 := by
      have : 0 < u := hlo
      omega
    rfl
  have hedge : evenRig.settings.schedule.edge 4 = 10 := by
    have hp : 0 < evenRig.settings.schedule.halfPeriod := by decide
    rw [Schedule.edge_succ hp, Schedule.edge_succ hp, Schedule.edge_succ hp, Schedule.edge_succ hp,
      hzero]
    rfl
  have hending : (BusOp.play evenRig.settings.sentinels 0 (.empty 0 0xff 0) 0 0 storeAndLoad).ending =
    .completed := by decide
  have hlast : Ending.ticks evenRig.settings.schedule storeAndLoad .completed = 11 := by
    have h : Ending.edge storeAndLoad .completed = 4 := rfl
    rw [Ending.ticks, h, hedge]
  have hmain := (htimes report final hrun).1
  rw [hending, hlast] at hmain
  obtain ⟨hticks, houtcome⟩ := hmain (by decide)
  exact ⟨rfl, by decide, b, report, final, hstart, hrun, hticks, rfl, houtcome⟩

end Rig

end BusBench

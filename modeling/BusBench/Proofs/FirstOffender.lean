import BusBench.Proofs.Constraints
import BusBench.Proofs.Lanes
import BusBench.Proofs.Lines

namespace BusBench

/-- What is demanded of a configuration, its tests and the ops of its scripts by their places. -/
inductive Demand where
  | passKnown
  | failKnown
  | apart
  | timeout
  | halfPeriod
  | range
  | lo
  | hi
  | offset
  | timescale
  | strobe (op : Nat)
  | testApart (test : Nat)
  | testOffset (test : Nat)
  | testTimeout (test : Nat)
  | testStrobe (test op : Nat)
  deriving DecidableEq, Repr

namespace Demand

/-- What a demand asks for; a place where nothing stands asks for nothing. -/
def Met (c : Config) : Demand → Prop
  | passKnown => c.tests = [] → c.run.passAddr ≠ none
  | failKnown => c.tests = [] → c.run.failAddr ≠ none
  | apart => Differ c.run.passAddr c.run.failAddr
  | timeout => c.run.timeout ≠ 0
  | halfPeriod => c.run.halfPeriod ≠ 0
  | range => c.memory.lo ≤ c.memory.hi
  | lo => c.memory.lo.toNat % 4 = 0
  | hi => c.memory.hi.toNat % 4 = 3
  | offset => c.memory.offset.toNat % 4 = 0
  | timescale => c.trace.enabled = true → ∃ ch ∈ c.trace.timescale.toList, isBlank ch = false
  | strobe n => ∀ op ∈ c.script[n]?, op.FourLanes
  | testApart i => ∀ t ∈ c.tests[i]?,
      Differ (t.passAddr <|> c.run.passAddr) (t.failAddr <|> c.run.failAddr)
  | testOffset i => ∀ t ∈ c.tests[i]?, ∀ addr ∈ t.offset, addr.toNat % 4 = 0
  | testTimeout i => ∀ t ∈ c.tests[i]?, t.timeout ≠ some 0
  | testStrobe i n => ∀ t ∈ c.tests[i]?, ∀ ops ∈ t.script, ∀ op ∈ ops[n]?, op.FourLanes

/-- What is wrong with the lanes of an op that enables too many. -/
def lanes? (key : String) : BusOp → Option ConfigError
  | .write _ _ enabled => some (.invalid key (.extraLanes enabled))
  | _ => none

/-- The error that stands for a demand: the dotted key with what is wrong there, or the address
that two sentinels share with where they come from. -/
def blame? (c : Config) : Demand → Option ConfigError
  | passKnown => some (.missingSentinel "run.pass_addr")
  | failKnown => some (.missingSentinel "run.fail_addr")
  | apart => c.run.passAddr.map (.sentinelClash "")
  | timeout => some (.invalid "run.timeout_ticks" .zero)
  | halfPeriod => some (.invalid "run.half_period" .zero)
  | range => some (.invalid "memory.lo" (.aboveTop c.memory.lo c.memory.hi))
  | lo => some (.invalid "memory.lo" (.unaligned c.memory.lo))
  | hi => some (.invalid "memory.hi" (.splitsWord c.memory.hi))
  | offset => some (.invalid "memory.offset" (.unaligned c.memory.offset))
  | timescale => some (.invalid "trace.timescale" .blank)
  | strobe n => c.script[n]?.bind (lanes? s!"script[{n}].strobe")
  | testApart i => c.tests[i]?.bind fun t =>
      (t.passAddr <|> c.run.passAddr).map (.sentinelClash s!"test[{i}]: ")
  | testOffset i => c.tests[i]?.bind fun t =>
      t.offset.map fun addr => .invalid s!"test[{i}].offset" (.unaligned addr)
  | testTimeout i => some (.invalid s!"test[{i}].timeout_ticks" .zero)
  | testStrobe i n => c.tests[i]?.bind fun t => t.script.bind fun ops =>
      ops[n]?.bind (lanes? s!"test[{i}].script[{n}].strobe")

/-- What is demanded of the entry at a place of the test list. -/
def ofTest (i : Nat) (t : TestEntry) : List Demand :=
  [testApart i, testOffset i, testTimeout i] ++
    (t.script.getD []).zipIdx.map fun (_, n) => testStrobe i n

/-- A demand that is not met, with all before it in a list met. -/
def FirstUnmet (c : Config) (ds : List Demand) (d : Demand) : Prop :=
  ∃ before after, ds = before ++ d :: after ∧ (∀ b ∈ before, b.Met c) ∧ ¬ d.Met c

/-- A constraint holds exactly if its demand is met, and its error is else the one to blame. -/
structure Tells (c : Config) (d : Demand) (x : Constraint) : Prop where
  holds : x.holds = true ↔ d.Met c
  error : ¬ d.Met c → d.blame? c = some x.error

/-- Constraints for demands in their order; a demand that is met may be left out. -/
inductive Follows (c : Config) : List Demand → List Constraint → Prop
  | nil : Follows c [] []
  | met {d ds xs} : d.Met c → Follows c ds xs → Follows c (d :: ds) xs
  | tells {d ds x xs} : Tells c d x → Follows c ds xs → Follows c (d :: ds) (x :: xs)

variable {c : Config} {d : Demand} {ds es : List Demand} {x : Constraint} {xs ys : List Constraint}
  {e : ConfigError}

theorem firstUnmet_nil : ¬ FirstUnmet c [] d := by
  rintro ⟨before, after, h, _⟩
  simp at h

theorem firstUnmet_cons_of_met {d' : Demand} (hd : d.Met c) :
    FirstUnmet c (d :: ds) d' ↔ FirstUnmet c ds d' := by
  constructor
  · rintro ⟨before, after, h, hmet, hnot⟩
    cases before with
    | nil =>
      cases h
      exact absurd hd hnot
    | cons b before =>
      cases h
      exact ⟨before, after, rfl, fun b hb => hmet b (List.mem_cons_of_mem _ hb), hnot⟩
  · rintro ⟨before, after, rfl, hmet, hnot⟩
    exact ⟨d :: before, after, rfl, List.forall_mem_cons.mpr ⟨hd, hmet⟩, hnot⟩

theorem firstUnmet_cons_of_unmet {d' : Demand} (hd : ¬ d.Met c) :
    FirstUnmet c (d :: ds) d' ↔ d' = d := by
  constructor
  · rintro ⟨before, after, h, hmet, _⟩
    cases before with
    | nil =>
      cases h
      rfl
    | cons b before =>
      cases h
      exact absurd (hmet _ (List.mem_cons_self ..)) hd
  · rintro rfl
    exact ⟨[], ds, rfl, nofun, hd⟩

theorem Follows.one (h : Tells c d x) : Follows c [d] [x] := .tells h .nil

theorem Follows.append (h : Follows c ds xs) (h' : Follows c es ys) :
    Follows c (ds ++ es) (xs ++ ys) := by
  induction h with
  | nil => exact h'
  | met hd _ ih => exact .met hd ih
  | tells hd _ ih => exact .tells hd ih

theorem Follows.flatMap {α : Type} {l : List α} {f : α → List Demand} {g : α → List Constraint}
    (h : ∀ a ∈ l, Follows c (f a) (g a)) : Follows c (l.flatMap f) (l.flatMap g) := by
  induction l with
  | nil => exact .nil
  | cons a l ih =>
    obtain ⟨ha, hl⟩ := List.forall_mem_cons.mp h
    exact ha.append (ih hl)

theorem firstFailure_cons :
    firstFailure (x :: xs) = if x.holds then firstFailure xs else .error x.error := by
  unfold firstFailure
  cases hx : x.holds <;> simp [hx]

theorem Follows.firstFailure_ok (h : Follows c ds xs) :
    firstFailure xs = .ok () ↔ ∀ d ∈ ds, d.Met c := by
  induction h with
  | nil => exact iff_of_true rfl nofun
  | met hd _ ih => rw [ih, List.forall_mem_cons, and_iff_right hd]
  | @tells d ds x xs hd _ ih =>
    rw [firstFailure_cons, List.forall_mem_cons, ← hd.holds]
    cases x.holds with
    | true => simpa using ih
    | false => simp

theorem Follows.firstFailure_error (h : Follows c ds xs) :
    firstFailure xs = .error e ↔ ∃ d, FirstUnmet c ds d ∧ d.blame? c = some e := by
  induction h with
  | nil => exact iff_of_false nofun fun ⟨_, hfirst, _⟩ => firstUnmet_nil hfirst
  | met hd _ ih => simp only [ih, firstUnmet_cons_of_met hd]
  | @tells d ds x xs hd _ ih =>
    rw [firstFailure_cons]
    by_cases hmet : d.Met c
    · simp only [hd.holds.mpr hmet, if_true, ih, firstUnmet_cons_of_met hmet]
    · have hfails : ¬ x.holds = true := fun hx => hmet (hd.holds.mp hx)
      rw [if_neg hfails]
      simp only [firstUnmet_cons_of_unmet hmet, exists_eq_left, hd.error hmet, Except.error.injEq,
        Option.some.injEq]

/-- Sentinels that are not both known are not compared. -/
theorem follows_clash {context : String} {pass fail : Option Word}
    (hmet : d.Met c ↔ Differ pass fail) (hblame : d.blame? c = pass.map (.sentinelClash context)) :
    Follows c [d] (Config.clash context pass fail) := by
  cases pass with
  | none => exact .met (hmet.mpr nofun) .nil
  | some p =>
    cases fail with
    | none => exact .met (hmet.mpr fun _ _ => nofun) .nil
    | some f => exact .one ⟨by simp [hmet, Differ], fun _ => hblame⟩

theorem follows_strobes {key : String} {script : List BusOp} {f : Nat → Demand}
    (hmet : ∀ n, (f n).Met c ↔ ∀ op ∈ script[n]?, op.FourLanes)
    (hblame : ∀ n, (f n).blame? c = script[n]?.bind (lanes? (Config.itemKey key n ".strobe"))) :
    Follows c (script.zipIdx.map fun (_, n) => f n) (Config.strobes key script) := by
  rw [List.map_eq_flatMap]
  refine Follows.flatMap fun ⟨op, n⟩ hmem => ?_
  have hop : script[n]? = some op := List.mem_zipIdx_iff_getElem?.mp hmem
  have hlanes : (f n).Met c ↔ op.FourLanes := by simp [hmet, hop]
  cases op with
  | write addr data enabled =>
    refine .one ⟨by simp [hlanes, BusOp.FourLanes], fun _ => ?_⟩
    rw [hblame, hop]
    rfl
  | read addr expect => exact .met (hlanes.mpr trivial) .nil
  | idle cycles => exact .met (hlanes.mpr trivial) .nil
  | finish => exact .met (hlanes.mpr trivial) .nil

theorem follows_script :
    Follows c (c.script.zipIdx.map fun (_, n) => strobe n) (Config.strobes "script" c.script) := by
  refine follows_strobes (fun _ => Iff.rfl) fun n => ?_
  rw [itemKey_eq]
  rfl

section

variable {i : Nat} {t : TestEntry}

theorem follows_testApart (ht : c.tests[i]? = some t) :
    Follows c [testApart i] (Config.clash (Config.itemKey "test" i ": ")
      (t.passAddr <|> c.run.passAddr) (t.failAddr <|> c.run.failAddr)) := by
  refine follows_clash (by simp [Met, ht]) ?_
  rw [blame?, ht, itemKey_eq]
  rfl

theorem follows_testOffset (ht : c.tests[i]? = some t) :
    Follows c [testOffset i] (match t.offset with
      | some addr =>
        [⟨addr.aligned, .invalid (Config.itemKey "test" i ".offset") (.unaligned addr)⟩]
      | none => []) := by
  cases hoffset : t.offset with
  | none => exact .met (by simp [Met, ht, hoffset]) .nil
  | some addr =>
    refine .one ⟨by simp [Met, ht, hoffset, aligned_iff], fun _ => ?_⟩
    rw [blame?, ht, Option.bind_some, hoffset, itemKey_eq]
    rfl

theorem follows_testTimeout (ht : c.tests[i]? = some t) :
    Follows c [testTimeout i] (match t.timeout with
      | some ticks =>
        [⟨ticks != 0, .invalid (Config.itemKey "test" i ".timeout_ticks") .zero⟩]
      | none => []) := by
  cases htimeout : t.timeout with
  | none => exact .met (by simp [Met, ht, htimeout]) .nil
  | some ticks =>
    refine .one ⟨by simp [Met, ht, htimeout], fun _ => ?_⟩
    rw [itemKey_eq]
    rfl

theorem follows_testScript (ht : c.tests[i]? = some t) :
    Follows c ((t.script.getD []).zipIdx.map fun (_, n) => testStrobe i n) (match t.script with
      | some script => Config.strobes (Config.itemKey "test" i ".script") script
      | none => []) := by
  cases hscript : t.script with
  | none => exact .nil
  | some script =>
    refine follows_strobes (fun n => by simp [Met, ht, hscript]) fun n => ?_
    rw [blame?, ht, Option.bind_some, hscript, Option.bind_some]
    simp only [Config.itemKey, String.append_assoc]
    rfl

end

end Demand

namespace Config

/-- All that is demanded of a configuration, in the order in which it is looked at. -/
def demands (c : Config) : List Demand :=
  [.passKnown, .failKnown, .apart, .timeout, .halfPeriod, .range, .lo, .hi, .offset, .timescale] ++
  (c.script.zipIdx.map fun (_, n) => .strobe n) ++
  c.tests.zipIdx.flatMap fun (t, i) => Demand.ofTest i t

open Demand

theorem follows_sentinels (c : Config) : Follows c [.passKnown, .failKnown]
    (if c.tests.isEmpty then
      [⟨c.run.passAddr.isSome, .missingSentinel "run.pass_addr"⟩,
       ⟨c.run.failAddr.isSome, .missingSentinel "run.fail_addr"⟩]
    else []) := by
  by_cases htests : c.tests = []
  · rw [if_pos (by simp [htests])]
    refine .tells ⟨?_, fun _ => rfl⟩ (.one ⟨?_, fun _ => rfl⟩)
    · simp [Met, htests, Option.isSome_iff_ne_none]
    · simp [Met, htests, Option.isSome_iff_ne_none]
  · rw [if_neg (by simp [htests])]
    exact .met (fun h => absurd h htests) (.met (fun h => absurd h htests) .nil)

theorem follows_settings (c : Config) : Follows c
    [.timeout, .halfPeriod, .range, .lo, .hi, .offset, .timescale]
    [⟨c.run.timeout != 0, .invalid "run.timeout_ticks" .zero⟩,
     ⟨c.run.halfPeriod != 0, .invalid "run.half_period" .zero⟩,
     ⟨c.memory.lo ≤ c.memory.hi, .invalid "memory.lo" (.aboveTop c.memory.lo c.memory.hi)⟩,
     ⟨c.memory.lo.aligned, .invalid "memory.lo" (.unaligned c.memory.lo)⟩,
     ⟨c.memory.hi &&& 3 == 3, .invalid "memory.hi" (.splitsWord c.memory.hi)⟩,
     ⟨c.memory.offset.aligned, .invalid "memory.offset" (.unaligned c.memory.offset)⟩,
     ⟨!c.trace.enabled || !(trim c.trace.timescale.toList).isEmpty,
       .invalid "trace.timescale" .blank⟩] := by
  have hhi : (c.memory.hi &&& 3 == 3) = true ↔ c.memory.hi.toNat % 4 = 3 := by
    rw [beq_iff_eq, ← UInt32.toNat_inj, toNat_and_three]
    rfl
  have hscale : (!c.trace.enabled || !(trim c.trace.timescale.toList).isEmpty) = true ↔
      (c.trace.enabled = true → ∃ ch ∈ c.trace.timescale.toList, isBlank ch = false) := by
    rw [Bool.or_eq_true, Bool.not_eq_true', Bool.not_eq_true', List.isEmpty_eq_false_iff, Ne,
      trim_eq_nil_iff]
    cases c.trace.enabled <;> simp
  exact .tells ⟨bne_iff_ne, fun _ => rfl⟩ <| .tells ⟨bne_iff_ne, fun _ => rfl⟩ <|
    .tells ⟨decide_eq_true_iff, fun _ => rfl⟩ <| .tells ⟨aligned_iff _, fun _ => rfl⟩ <|
    .tells ⟨hhi, fun _ => rfl⟩ <| .tells ⟨aligned_iff _, fun _ => rfl⟩ <|
    .one ⟨hscale, fun _ => rfl⟩

/-- The constraints of a configuration are its demands, but for some that are met anyway. -/
theorem follows_constraints (c : Config) : Follows c c.demands c.constraints := by
  have hapart : Follows c [.apart] (clash "" c.run.passAddr c.run.failAddr) :=
    follows_clash Iff.rfl rfl
  have htests : Follows c (c.tests.zipIdx.flatMap fun (t, i) => Demand.ofTest i t)
      (c.tests.zipIdx.flatMap fun (t, i) => testConstraints c.run i t) := by
    refine Follows.flatMap fun ⟨t, i⟩ hmem => ?_
    have ht : c.tests[i]? = some t := List.mem_zipIdx_iff_getElem?.mp hmem
    exact (((follows_testApart ht).append (follows_testOffset ht)).append
      (follows_testTimeout ht)).append (follows_testScript ht)
  exact ((((follows_sentinels c).append hapart).append (follows_settings c)).append
    follows_script).append htests

/-- What is not listed is about places where nothing stands. -/
theorem met_of_listed {c : Config} (h : ∀ d ∈ c.demands, d.Met c) (d : Demand) : d.Met c := by
  obtain ⟨hcommon, htests⟩ := List.forall_mem_append.mp h
  obtain ⟨hfirst, hscript⟩ := List.forall_mem_append.mp hcommon
  have htest {i : Nat} {t : TestEntry} (ht : c.tests[i]? = some t) :
      ∀ d ∈ Demand.ofTest i t, d.Met c :=
    fun d hd => htests d (List.mem_flatMap.mpr ⟨(t, i), List.mem_zipIdx_iff_getElem?.mpr ht, hd⟩)
  cases d with
  | strobe n =>
    intro op hop
    exact hscript (.strobe n)
      (List.mem_map.mpr ⟨(op, n), List.mem_zipIdx_iff_getElem?.mpr hop, rfl⟩) op hop
  | testApart i => exact fun t ht => htest ht (.testApart i) (by simp [ofTest]) t ht
  | testOffset i => exact fun t ht => htest ht (.testOffset i) (by simp [ofTest]) t ht
  | testTimeout i => exact fun t ht => htest ht (.testTimeout i) (by simp [ofTest]) t ht
  | testStrobe i n =>
    intro t ht ops hops op hop
    have hmem : (op, n) ∈ (t.script.getD []).zipIdx := by
      rw [show t.script = some ops from hops]
      exact List.mem_zipIdx_iff_getElem?.mpr hop
    exact htest ht (.testStrobe i n)
      (List.mem_append_right _ (List.mem_map.mpr ⟨_, hmem, rfl⟩)) t ht ops hops op hop
  | _ => exact hfirst _ (by simp)

/-- A configuration is accepted exactly if every demand is met. Else the first one that is not,
with tests one after the other, is the one that is blamed. -/
theorem check_blames_first (c : Config) :
    (c.check = .ok () ↔ ∀ d : Demand, d.Met c) ∧
    ∀ e, c.check = .error e ↔ ∃ d, FirstUnmet c c.demands d ∧ d.blame? c = some e := by
  have hfollows := follows_constraints c
  refine ⟨?_, fun e => hfollows.firstFailure_error⟩
  rw [check, hfollows.firstFailure_ok]
  exact ⟨met_of_listed, fun h d _ => h d⟩

end Config

/-- Two entries with something wrong, of which the first one counts. -/
def strayLanes : Config where
  run := { passAddr := some 0x10, failAddr := some 0x14 }
  tests := [{ image := "a.hex" },
    { image := "b.hex", timeout := some 5, script := some [.finish, .write 0x20 1 0x1f] },
    { image := "c.hex", timeout := some 0 }]

example :
    strayLanes.check = .error (.invalid "test[1].script[1].strobe" (.extraLanes 0x1f)) := by
  rfl

end BusBench

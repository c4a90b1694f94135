import BusBench.ConfigText

namespace BusBench

theorem firstFailure_eq_ok_iff {cs : List Constraint} :
    firstFailure cs = .ok () ↔ ∀ x ∈ cs, x.holds = true := by
  unfold firstFailure
  cases h : cs.find? fun x => !x.holds with
  | none => simpa using h
  | some x =>
    have hx : x.holds = false := by simpa using List.find?_some h
    refine iff_of_false nofun fun hall => ?_
    rw [hall x (List.mem_of_find?_eq_some h)] at hx
    cases hx

theorem itemKey_eq (list rest : String) (n : Nat) :
    Config.itemKey list n rest = (list ++ "[") ++ toString n ++ ("]" ++ rest) := by
  simp only [Config.itemKey, String.append_assoc]

/-- Two sentinels of which at least one is unknown, or that are different. -/
def Differ (pass fail : Option Word) : Prop := ∀ p ∈ pass, ∀ f ∈ fail, p ≠ f

instance (pass fail : Option Word) : Decidable (Differ pass fail) :=
  inferInstanceAs (Decidable (∀ p ∈ pass, ∀ f ∈ fail, p ≠ f))

/-- A write enables lanes of one word only. -/
def BusOp.FourLanes : BusOp → Prop
  | write _ _ strobe => strobe ≤ 0xf
  | _ => True

/-- What must hold of an entry but for its sentinels. -/
structure TestEntry.Sound (t : TestEntry) : Prop where
  offset : ∀ addr ∈ t.offset, addr.aligned = true
  timeout : t.timeout ≠ some 0
  script : ∀ ops ∈ t.script, ∀ op ∈ ops, op.FourLanes

/-- What must hold of a configuration but for its sentinels. -/
structure Config.Sound (c : Config) : Prop where
  timeout : c.run.timeout ≠ 0
  halfPeriod : c.run.halfPeriod ≠ 0
  range : c.memory.lo ≤ c.memory.hi
  lo : c.memory.lo.aligned = true
  hi : c.memory.hi &&& 3 = 3
  offset : c.memory.offset.aligned = true
  timescale : c.trace.enabled = true → trim c.trace.timescale.toList ≠ []
  script : ∀ op ∈ c.script, op.FourLanes
  tests : ∀ t ∈ c.tests, t.Sound

/-- What holds of a value of its own and of the common one holds of the one that counts. -/
theorem holds_getD {α : Type} {P : α → Prop} {own : Option α} {common : α}
    (hown : ∀ a ∈ own, P a) (hcommon : P common) : P (own.getD common) := by
  cases own with
  | none => exact hcommon
  | some a => exact hown a rfl

theorem getD_ne_zero {own : Option Nat} {common : Nat} (hown : own ≠ some 0) (hcommon : common ≠ 0) :
    own.getD common ≠ 0 :=
  holds_getD (P := (· ≠ 0)) (fun _ hn hzero => hown (hzero ▸ hn)) hcommon

namespace Config

variable {c : Config}

theorem clash_holds_iff {context : String} {pass fail : Option Word} :
    (∀ x ∈ clash context pass fail, x.holds = true) ↔ Differ pass fail := by
  cases pass <;> cases fail <;> simp [clash, Differ]

theorem strobes_hold_iff {key : String} {script : List BusOp} :
    (∀ x ∈ strobes key script, x.holds = true) ↔ ∀ op ∈ script, op.FourLanes := by
  simp only [strobes, List.mem_flatMap]
  constructor
  · intro h op hop
    obtain ⟨n, hn⟩ := List.mem_iff_getElem?.mp hop
    have hmem : (op, n) ∈ script.zipIdx := List.mem_zipIdx_iff_getElem?.mpr hn
    cases op with
    | write addr data strobe =>
      exact of_decide_eq_true (p := strobe ≤ 0xf) (h _ ⟨_, hmem, List.mem_singleton_self _⟩)
    | read addr expect => trivial
    | idle cycles => trivial
    | finish => trivial
  · rintro h x ⟨⟨op, n⟩, hmem, hx⟩
    have hop := h op (List.fst_mem_of_mem_zipIdx hmem)
    cases op with
    | write addr data strobe =>
      obtain rfl := List.mem_singleton.mp hx
      exact decide_eq_true (p := strobe ≤ 0xf) hop
    | read addr expect => cases hx
    | idle cycles => cases hx
    | finish => cases hx

theorem testConstraints_hold_iff {run : RunSection} {n : Nat} {t : TestEntry} :
    (∀ x ∈ testConstraints run n t, x.holds = true) ↔
      Differ (t.passAddr <|> run.passAddr) (t.failAddr <|> run.failAddr) ∧ t.Sound := by
  have hsound : t.Sound ↔ (∀ addr ∈ t.offset, addr.aligned = true) ∧ t.timeout ≠ some 0 ∧
      ∀ ops ∈ t.script, ∀ op ∈ ops, op.FourLanes :=
    ⟨fun h => ⟨h.offset, h.timeout, h.script⟩, fun h => ⟨h.1, h.2.1, h.2.2⟩⟩
  simp only [testConstraints, List.forall_mem_append, clash_holds_iff, hsound, and_assoc]
  refine and_congr_right fun _ => and_congr ?_ (and_congr ?_ ?_)
  · cases t.offset <;> simp
  · cases t.timeout <;> simp
  · cases t.script <;> simp [strobes_hold_iff]

theorem allTests_hold_iff {run : RunSection} {ts : List TestEntry} :
    (∀ x ∈ ts.zipIdx.flatMap fun y => testConstraints run y.2 y.1, x.holds = true) ↔
      ∀ t ∈ ts, Differ (t.passAddr <|> run.passAddr) (t.failAddr <|> run.failAddr) ∧ t.Sound := by
  simp only [List.mem_flatMap]
  constructor
  · intro h t ht
    obtain ⟨n, hn⟩ := List.mem_iff_getElem?.mp ht
    have hmem : (t, n) ∈ ts.zipIdx := List.mem_zipIdx_iff_getElem?.mpr hn
    exact testConstraints_hold_iff.mp fun x hx => h x ⟨_, hmem, hx⟩
  · rintro h x ⟨⟨t, n⟩, hmem, hx⟩
    exact testConstraints_hold_iff.mpr (h t (List.fst_mem_of_mem_zipIdx hmem)) x hx

/-- A configuration is accepted exactly if it is sound, its sentinels are there if no test brings
its own, and no two sentinels meet that the listings of the tests leave out of account. -/
theorem check_eq_ok_iff :
    c.check = .ok () ↔
      (c.tests = [] → c.run.passAddr.isSome ∧ c.run.failAddr.isSome) ∧
      Differ c.run.passAddr c.run.failAddr ∧ c.Sound ∧
      ∀ t ∈ c.tests, Differ (t.passAddr <|> c.run.passAddr) (t.failAddr <|> c.run.failAddr) := by
  have hknown : (∀ x ∈ (if c.tests.isEmpty then
      [⟨c.run.passAddr.isSome, .missingSentinel "run.pass_addr"⟩,
       ⟨c.run.failAddr.isSome, .missingSentinel "run.fail_addr"⟩]
      else ([] : List Constraint)), x.holds = true) ↔
      (c.tests = [] → c.run.passAddr.isSome ∧ c.run.failAddr.isSome) := by
    cases c.tests <;> simp
  -- what is left are five groups of constraints, in the order in which they are reported
  rw [check, firstFailure_eq_ok_iff, constraints]
  simp only [List.forall_mem_append, hknown, clash_holds_iff, strobes_hold_iff]
  constructor
  · rintro ⟨⟨⟨⟨hk, hd⟩, hrun⟩, hs⟩, ht⟩
    simp only [List.forall_mem_cons, bne_iff_ne, decide_eq_true_eq, beq_iff_eq, Bool.or_eq_true,
      Bool.not_eq_true', List.isEmpty_eq_false_iff] at hrun
    obtain ⟨htime, hhalf, hrange, hlo, hhi, hoffset, hscale, -⟩ := hrun
    have htests := allTests_hold_iff.mp ht
    exact ⟨hk, hd,
      ⟨htime, hhalf, hrange, hlo, hhi, hoffset, fun he => hscale.resolve_left (by simp [he]), hs,
        fun t hmem => (htests t hmem).2⟩, fun t hmem => (htests t hmem).1⟩
  · rintro ⟨hk, hd, hsound, ht⟩
    refine ⟨⟨⟨⟨hk, hd⟩, ?_⟩, hsound.script⟩,
      allTests_hold_iff.mpr fun t hmem => ⟨ht t hmem, hsound.tests t hmem⟩⟩
    simp only [List.forall_mem_cons, bne_iff_ne, decide_eq_true_eq, beq_iff_eq, Bool.or_eq_true,
      Bool.not_eq_true', List.isEmpty_eq_false_iff]
    refine ⟨hsound.timeout, hsound.halfPeriod, hsound.range, hsound.lo, hsound.hi, hsound.offset,
      ?_, fun x hx => absurd hx List.not_mem_nil⟩
    cases he : c.trace.enabled with
    | false => exact .inl rfl
    | true => exact .inr (hsound.timescale he)

/-- Nothing that is checked depends on where paths start. -/
theorem check_anchor (base : Path) : (c.anchor base).check = c.check := by
  have hconstraints : (c.anchor base).constraints = c.constraints := by
    simp only [constraints, anchor, List.isEmpty_map, List.zipIdx_map, List.flatMap_map]
    rfl
  rw [check, hconstraints, check]

theorem ofDocument_eq_ok_iff {format : Format} {d : Document} :
    ofDocument format d = .ok c ↔ reader format d = .ok c ∧ c.check = .ok () := by
  unfold ofDocument
  cases reader format d with
  | error e => simp
  | ok c' =>
    cases hc : c'.check with
    | error e =>
      refine iff_of_false (fun h => by simp only [hc] at h; cases h) ?_
      rintro ⟨h, hok⟩
      cases h
      cases hc.symm.trans hok
    | ok u =>
      simp only [hc]
      constructor
      · intro h
        cases h
        exact ⟨rfl, hc⟩
      · rintro ⟨h, -⟩
        cases h
        rfl

theorem ofToml_eq_ok_iff {text : String} :
    ofToml text = .ok c ↔
      ∃ d, Toml.parse text = some d ∧ reader .toml d = .ok c ∧ c.check = .ok () := by
  unfold ofToml
  cases Toml.parse text with
  | none => simp
  | some d => simp [ofDocument_eq_ok_iff]

end Config

end BusBench

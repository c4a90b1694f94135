import BusBench.Schedule
import Mathlib.Algebra.Ring.Parity
import Mathlib.Data.Nat.ModEq
import Mathlib.Data.Nat.Nth

namespace BusBench

namespace Schedule

variable {s : Schedule}

theorem togglesAt_iff_dvd {t : Nat} (h : 1 % s.halfPeriod ≤ t) :
    s.togglesAt t = true ↔ s.halfPeriod ∣ t - 1 % s.halfPeriod := by
  have hm : Nat.ModEq s.halfPeriod t (1 % s.halfPeriod) ↔ s.halfPeriod ∣ t - 1 % s.halfPeriod :=
    ⟨fun hc => (Nat.modEq_iff_dvd' h).mp hc.symm, fun hd => ((Nat.modEq_iff_dvd' h).mpr hd).symm⟩
  rw [← hm, Nat.ModEq, Nat.mod_mod]
  simp [togglesAt]

theorem togglesAt_before_first {t : Nat} (h : t < 1 % s.halfPeriod) : s.togglesAt t = false := by
  have hle : 1 % s.halfPeriod ≤ 1 := Nat.mod_le ..
  have ht : t = 0 := by omega
  subst t
  simp only [togglesAt, Nat.zero_mod, beq_eq_false_iff_ne]
  omega

theorem inversionsBefore_succ (t : Nat) :
    s.inversionsBefore (t + 1) = s.inversionsBefore t + if s.togglesAt t then 1 else 0 := by
  simp only [inversionsBefore]
  rcases lt_trichotomy t (1 % s.halfPeriod) with h | h | h
  · simp [togglesAt_before_first h, show t + 1 ≤ 1 % s.halfPeriod by omega,
      show t ≤ 1 % s.halfPeriod by omega]
  · have ht : s.togglesAt t = true := (togglesAt_iff_dvd h.ge).mpr (by simp [h])
    simp [ht, ← h]
  · obtain ⟨u, hu⟩ : ∃ u, t = 1 % s.halfPeriod + 1 + u := ⟨t - 1 % s.halfPeriod - 1, by omega⟩
    have hd := togglesAt_iff_dvd (s := s) h.le
    rw [show t - 1 % s.halfPeriod = u + 1 by omega] at hd
    rw [if_neg (by omega), if_neg (by omega), show t + 1 - 1 % s.halfPeriod - 1 = u + 1 by omega,
      show t - 1 % s.halfPeriod - 1 = u by omega, Nat.succ_div]
    by_cases hv : s.halfPeriod ∣ u + 1
    · simp [hd.mpr hv, hv]
    · have hf : s.togglesAt t = false := by simpa using mt hd.mp hv
      simp [hf, hv]

/-- The closed form counts the inversions one by one. -/
theorem inversionsBefore_eq_count (t : Nat) :
    s.inversionsBefore t = Nat.count (s.togglesAt ·) t := by
  induction t with
  | zero => simp [inversionsBefore]
  | succ t ih => rw [inversionsBefore_succ, Nat.count_succ, ih]

theorem risesAt_iff_count (t : Nat) :
    s.risesAt t = true ↔ s.togglesAt t = true ∧ ¬ Odd (Nat.count (s.togglesAt ·) t) := by
  rw [← inversionsBefore_eq_count, Nat.not_odd_iff]
  simp [risesAt]

theorem inversionsBefore_multiple (hp : 0 < s.halfPeriod) (k : Nat) :
    s.inversionsBefore (1 % s.halfPeriod + s.halfPeriod * k) = k := by
  simp only [inversionsBefore]
  cases k with
  | zero => simp
  | succ k =>
    have hm : s.halfPeriod * (k + 1) = s.halfPeriod * k + s.halfPeriod := Nat.mul_succ ..
    have hd : (s.halfPeriod * k + (s.halfPeriod - 1)) / s.halfPeriod = k := by
      rw [Nat.mul_add_div hp, Nat.div_eq_of_lt (by omega), Nat.add_zero]
    rw [if_neg (by omega), show 1 % s.halfPeriod + s.halfPeriod * (k + 1) - 1 % s.halfPeriod - 1 =
      s.halfPeriod * k + (s.halfPeriod - 1) by omega, hd]

/-- The rising edges are two half periods apart. -/
theorem risesAt_iff (hp : 0 < s.halfPeriod) (t : Nat) :
    s.risesAt t = true ↔ ∃ k, t = 1 % s.halfPeriod + 2 * s.halfPeriod * k := by
  constructor
  · intro h
    simp only [risesAt, Bool.and_eq_true, beq_iff_eq] at h
    have hf : 1 % s.halfPeriod ≤ t := by
      by_contra hlt
      simp [togglesAt_before_first (Nat.lt_of_not_le hlt)] at h
    obtain ⟨q, hq⟩ := (togglesAt_iff_dvd hf).mp h.1
    have ht : t = 1 % s.halfPeriod + s.halfPeriod * q := by omega
    have hi := h.2
    rw [ht, inversionsBefore_multiple hp] at hi
    have hh : 2 * s.halfPeriod * (q / 2) = s.halfPeriod * (2 * (q / 2)) := by
      rw [Nat.mul_comm 2, Nat.mul_assoc]
    exact ⟨q / 2, by rw [ht, hh, show 2 * (q / 2) = q by omega]⟩
  · rintro ⟨k, rfl⟩
    have hk : 2 * s.halfPeriod * k = s.halfPeriod * (2 * k) := by
      rw [Nat.mul_comm 2, Nat.mul_assoc]
    have ht := (togglesAt_iff_dvd (s := s) (t := 1 % s.halfPeriod + s.halfPeriod * (2 * k))
      (Nat.le_add_right ..)).mpr (by simp)
    simp [risesAt, hk, ht, inversionsBefore_multiple hp]

theorem risesAt_add_period (hp : 0 < s.halfPeriod) {t : Nat} (h : s.risesAt t = true) :
    s.risesAt (t + 2 * s.halfPeriod) = true := by
  obtain ⟨k, rfl⟩ := (risesAt_iff hp t).mp h
  exact (risesAt_iff hp _).mpr ⟨k + 1, by rw [Nat.mul_succ, Nat.add_assoc]⟩

/-- Two rising edges are at least a period apart. -/
theorem add_period_le_of_rises (hp : 0 < s.halfPeriod) {t u : Nat} (ht : s.risesAt t = true)
    (hu : s.risesAt u = true) (hlt : t < u) : t + 2 * s.halfPeriod ≤ u := by
  obtain ⟨j, rfl⟩ := (risesAt_iff hp t).mp ht
  obtain ⟨k, rfl⟩ := (risesAt_iff hp u).mp hu
  have hjk : j < k := by
    by_contra hle
    have := Nat.mul_le_mul_left (2 * s.halfPeriod) (Nat.le_of_not_lt hle)
    omega
  have hle := Nat.mul_le_mul_left (2 * s.halfPeriod) (show j + 1 ≤ k from hjk)
  rw [Nat.mul_succ] at hle
  omega

/-- The next rising edge comes a period later. -/
theorem next_rise_iff (hp : 0 < s.halfPeriod) {t : Nat} (ht : s.risesAt t = true) (u : Nat) :
    (t < u ∧ s.risesAt u = true ∧ ∀ v, t < v → v < u → s.risesAt v = false) ↔
      u = t + 2 * s.halfPeriod := by
  have hnext := risesAt_add_period hp ht
  constructor
  · rintro ⟨hlt, hu, hnone⟩
    have hle := add_period_le_of_rises hp ht hu hlt
    by_contra hne
    have hflat := hnone (t + 2 * s.halfPeriod) (by omega) (by omega)
    rw [hnext] at hflat
    cases hflat
  · rintro rfl
    refine ⟨by omega, hnext, fun v hv hlt => ?_⟩
    by_contra hrise
    have hle := add_period_le_of_rises hp ht (by simpa using hrise) hv
    omega

/-- The rising edges that come after reset, counted from 0. -/
noncomputable def edge (s : Schedule) (k : Nat) : Nat :=
  Nat.nth (fun t => s.resetTicks < t ∧ s.risesAt t = true) k

theorem edges_infinite (hp : 0 < s.halfPeriod) :
    (Set.ofPred fun t => s.resetTicks < t ∧ s.risesAt t = true).Infinite := by
  apply Set.infinite_of_forall_exists_gt
  intro n
  have hge : n + s.resetTicks + 1 ≤ 2 * s.halfPeriod * (n + s.resetTicks + 1) :=
    Nat.le_mul_of_pos_left _ (by omega)
  exact ⟨1 % s.halfPeriod + 2 * s.halfPeriod * (n + s.resetTicks + 1),
    ⟨by omega, (risesAt_iff hp _).mpr ⟨_, rfl⟩⟩, by omega⟩

theorem edge_rises (hp : 0 < s.halfPeriod) (k : Nat) :
    s.resetTicks < s.edge k ∧ s.risesAt (s.edge k) = true :=
  Nat.nth_mem_of_infinite (edges_infinite hp) k

theorem edge_lt_edge (hp : 0 < s.halfPeriod) {j k : Nat} (h : j < k) : s.edge j < s.edge k :=
  Nat.nth_strictMono (edges_infinite hp) h

theorem no_edge_between {k t : Nat} (hr : s.resetTicks < t) (hlo : s.edge k < t)
    (hhi : t < s.edge (k + 1)) : s.risesAt t = false := by
  by_contra h
  have hle := Nat.le_nth_of_lt_nth_succ hhi ⟨hr, by simpa using h⟩
  exact absurd hlo (Nat.not_lt.mpr hle)

theorem no_edge_before {t : Nat} (hr : s.resetTicks < t) (hlt : t < s.edge 0) :
    s.risesAt t = false := by
  by_contra h
  rw [edge, Nat.nth_zero] at hlt
  exact Nat.notMem_of_lt_sInf hlt ⟨hr, by simpa using h⟩

theorem edge_zero_eq {t : Nat} (hr : s.resetTicks < t) (ht : s.risesAt t = true)
    (first : ∀ u, s.resetTicks < u → u < t → s.risesAt u = false) : s.edge 0 = t := by
  rw [edge, Nat.nth_zero]
  refine IsLeast.csInf_eq ⟨⟨hr, ht⟩, ?_⟩
  intro u hu
  by_contra hlt
  simpa [first u hu.1 (by omega)] using hu.2

/-- Every tick is past an edge but not past the next one, unless it is not past the first. -/
theorem edge_cases (hp : 0 < s.halfPeriod) (t : Nat) :
    t ≤ s.edge 0 ∨ ∃ k, s.edge k < t ∧ t ≤ s.edge (k + 1) := by
  induction t with
  | zero => exact .inl (Nat.zero_le _)
  | succ t ih =>
    rcases ih with h | ⟨k, hlo, hhi⟩
    · rcases Nat.lt_or_eq_of_le h with hlt | rfl
      · exact .inl hlt
      · exact .inr ⟨0, Nat.lt_add_one _, edge_lt_edge hp Nat.zero_lt_one⟩
    · rcases Nat.lt_or_eq_of_le hhi with hlt | rfl
      · exact .inr ⟨k, by omega, hlt⟩
      · exact .inr ⟨k + 1, Nat.lt_add_one _, edge_lt_edge hp (Nat.lt_add_one _)⟩

theorem edge_succ (hp : 0 < s.halfPeriod) (k : Nat) :
    s.edge (k + 1) = s.edge k + 2 * s.halfPeriod := by
  obtain ⟨hr, hk⟩ := edge_rises hp k
  refine (next_rise_iff hp hk _).mp ⟨edge_lt_edge hp (Nat.lt_add_one k), (edge_rises hp _).2, ?_⟩
  exact fun t hlo hhi => no_edge_between (hr.trans hlo) hlo hhi

end Schedule

end BusBench

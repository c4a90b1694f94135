import BusBench.Proofs.CheckedWords
import BusBench.Proofs.Edges

namespace BusBench

namespace Schedule

/-- Whether the clock inverts on a tick, computed on 64 bits. -/
def checkedToggles (halfPeriod tick : UInt64) : Option Bool := do
  let phase ← Checked.remainder tick halfPeriod
  let first ← Checked.remainder 1 halfPeriod
  return phase == first

/-- The number of inversions before a tick, computed on 64 bits. -/
def checkedInversions (halfPeriod tick : UInt64) : Option UInt64 := do
  let first ← Checked.remainder 1 halfPeriod
  if tick ≤ first then return 0
  let since ← Checked.difference tick first
  let since ← Checked.difference since 1
  let periods ← Checked.quotient since halfPeriod
  Checked.sum periods 1

/-- Whether a tick is a rising edge, computed on 64 bits. -/
def checkedRises (halfPeriod tick : UInt64) : Option Bool := do
  if ← checkedToggles halfPeriod tick then
    let inversions ← checkedInversions halfPeriod tick
    return inversions % 2 == 0
  return false

section

variable {s : Schedule} {t : Nat}

theorem inversionsBefore_early (h : t ≤ 1 % s.halfPeriod) : s.inversionsBefore t = 0 := if_pos h

theorem inversionsBefore_late (h : 1 % s.halfPeriod < t) :
    s.inversionsBefore t = (t - 1 % s.halfPeriod - 1) / s.halfPeriod + 1 :=
  if_neg (Nat.not_le.mpr h)

theorem inversionsBefore_le (s : Schedule) (t : Nat) : s.inversionsBefore t ≤ t := by
  rw [inversionsBefore_eq_count]
  exact Nat.count_le _

end

section

variable {s : Schedule} {halfPeriod : UInt64}

theorem checkedToggles_eq (hp : halfPeriod ≠ 0) (hs : s.halfPeriod = halfPeriod.toNat)
    (tick : UInt64) : checkedToggles halfPeriod tick = some (s.togglesAt tick.toNat) := by
  obtain ⟨phase, hphase, htick⟩ := Checked.remainder_computes (a := tick) hp
  obtain ⟨first, hfirst, hone⟩ := Checked.remainder_computes (a := 1) hp
  have hsame : (phase == first) = s.togglesAt tick.toNat := by
    rw [togglesAt, hs, Bool.eq_iff_iff, beq_iff_eq, beq_iff_eq, ← UInt64.toNat_inj, htick, hone]
    rfl
  simp [checkedToggles, hphase, hfirst, hsame]

/-- No step of the closed form takes more than there is or leaves 64 bits. -/
theorem checkedInversions_computes (hp : halfPeriod ≠ 0) (hs : s.halfPeriod = halfPeriod.toNat)
    (tick : UInt64) :
    Computes (checkedInversions halfPeriod tick) (s.inversionsBefore tick.toNat) := by
  obtain ⟨first, hfirst, hone⟩ := Checked.remainder_computes (a := 1) hp
  have hone : first.toNat = 1 % s.halfPeriod := by rw [hs, hone]; rfl
  by_cases hearly : tick ≤ first
  · have hzero := inversionsBefore_early (s := s) (hone ▸ UInt64.le_iff_toNat_le.mp hearly)
    exact ⟨0, by simp [checkedInversions, hfirst, hearly], hzero.symm⟩
  · have hlate : first.toNat < tick.toNat := UInt64.lt_iff_toNat_lt.mp (UInt64.not_le.mp hearly)
    have hcount := inversionsBefore_late (s := s) (hone ▸ hlate)
    rw [← hone, hs] at hcount
    obtain ⟨since, hsince, hsincen⟩ := Checked.difference_computes hlate.le
    have hafter : (1 : UInt64).toNat ≤ since.toNat := by
      rw [hsincen]
      exact Nat.sub_pos_of_lt hlate
    obtain ⟨whole, hwhole, hwholen⟩ := Checked.difference_computes hafter
    obtain ⟨periods, hperiods, hperiodsn⟩ := Checked.quotient_computes (a := whole) hp
    have htotal : periods.toNat + (1 : UInt64).toNat = s.inversionsBefore tick.toNat := by
      rw [hcount, hperiodsn, hwholen, hsincen]
      rfl
    -- there are no more inversions than ticks before, so that the last sum fits as well
    have hfits : periods.toNat + (1 : UInt64).toNat < UInt64.size :=
      htotal ▸ (inversionsBefore_le s _).trans_lt tick.toNat_lt
    obtain ⟨total, hsum, htotaln⟩ := Checked.sum_computes hfits
    refine ⟨total, ?_, htotaln.trans htotal⟩
    simp [checkedInversions, hfirst, hearly, hsince, hwhole, hperiods, hsum]

theorem checkedRises_eq (hp : halfPeriod ≠ 0) (hs : s.halfPeriod = halfPeriod.toNat)
    (tick : UInt64) : checkedRises halfPeriod tick = some (s.risesAt tick.toNat) := by
  obtain ⟨count, hcount, hn⟩ := checkedInversions_computes hp hs tick
  have heven : (count % 2 == 0) = (s.inversionsBefore tick.toNat % 2 == 0) := by
    rw [Bool.eq_iff_iff, beq_iff_eq, beq_iff_eq, ← hn, ← UInt64.toNat_inj, UInt64.toNat_mod]
    rfl
  simp only [checkedRises, checkedToggles_eq hp hs, hcount, risesAt, ← heven]
  cases s.togglesAt tick.toNat <;> rfl

/-- For every half period and every tick of 64 bits the closed form is computed without a step
that leaves 64 bits, and gives the number of ticks before that tick on which the clock inverts. So
the rising edges are the ticks `1 % halfPeriod + 2 * halfPeriod * k`, and after each of them the
next one comes two half periods later. -/
theorem closed_form_counts (hp : halfPeriod ≠ 0) (hs : s.halfPeriod = halfPeriod.toNat)
    (tick : UInt64) :
    (∃ inversions, checkedInversions halfPeriod tick = some inversions ∧
        inversions.toNat = s.inversionsBefore tick.toNat ∧
        inversions.toNat = ((Finset.range tick.toNat).filter (s.togglesAt · = true)).card) ∧
      checkedToggles halfPeriod tick = some (s.togglesAt tick.toNat) ∧
      checkedRises halfPeriod tick = some (s.risesAt tick.toNat) ∧
      (s.risesAt tick.toNat = true ↔
        ∃ k, tick.toNat = 1 % halfPeriod.toNat + 2 * halfPeriod.toNat * k) ∧
      (s.risesAt tick.toNat = true → ∀ next,
        (tick.toNat < next ∧ s.risesAt next = true ∧
          ∀ t, tick.toNat < t → t < next → s.risesAt t = false) ↔
        next = tick.toNat + 2 * halfPeriod.toNat) := by
  have hpos : 0 < s.halfPeriod := by
    rw [hs]
    exact Nat.pos_of_ne_zero fun hzero => hp (UInt64.toNat_inj.mp hzero)
  obtain ⟨inversions, hcomputed, hn⟩ := checkedInversions_computes hp hs tick
  have hcard : s.inversionsBefore tick.toNat =
      ((Finset.range tick.toNat).filter (s.togglesAt · = true)).card := by
    rw [inversionsBefore_eq_count, Nat.count_eq_card_filter_range]
  rw [← hs]
  exact ⟨⟨inversions, hcomputed, hn, hn.trans hcard⟩, checkedToggles_eq hp hs tick,
    checkedRises_eq hp hs tick, risesAt_iff hpos _, fun hrise => next_rise_iff hpos hrise⟩

end

/-- On a clock that inverts on every tick the last tick of 64 bits has an inversion on each tick
before it; with a half period of 20 the rising edge after tick 41 is tick 81. -/
theorem closed_form_counts_to_the_end :
    (1 : UInt64) ≠ 0 ∧ (⟨1, 0⟩ : Schedule).halfPeriod = (1 : UInt64).toNat ∧
      checkedInversions 1 0xffffffffffffffff = some 0xffffffffffffffff ∧
      ((Finset.range (2 ^ 64 - 1)).filter ((⟨1, 0⟩ : Schedule).togglesAt · = true)).card =
        2 ^ 64 - 1 ∧
      (20 : UInt64) ≠ 0 ∧ (⟨20, 40⟩ : Schedule).halfPeriod = (20 : UInt64).toNat ∧
      (⟨20, 40⟩ : Schedule).risesAt 41 = true ∧ (⟨20, 40⟩ : Schedule).risesAt 81 = true ∧
      ∀ t, 41 < t → t < 81 → (⟨20, 40⟩ : Schedule).risesAt t = false := by
  have hone : (1 : UInt64) ≠ 0 := by decide
  have htwenty : (20 : UInt64) ≠ 0 := by decide
  have hlast : checkedInversions 1 0xffffffffffffffff = some 0xffffffffffffffff := by decide
  obtain ⟨⟨count, hcount, _, hcard⟩, _⟩ :=
    closed_form_counts (s := ⟨1, 0⟩) hone rfl 0xffffffffffffffff
  cases hlast.symm.trans hcount
  obtain ⟨_, _, _, _, hnext⟩ := closed_form_counts (s := ⟨20, 40⟩) htwenty rfl 41
  have hrise : (⟨20, 40⟩ : Schedule).risesAt 41 = true := rfl
  obtain ⟨_, hrise', hbetween⟩ := (hnext hrise 81).mpr rfl
  exact ⟨hone, rfl, hlast, hcard.symm, htwenty, rfl, hrise, hrise', hbetween⟩

end Schedule

end BusBench

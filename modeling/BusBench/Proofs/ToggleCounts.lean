import BusBench.Proofs.Handshakes
import BusBench.Proofs.Ratios
import BusBench.Proofs.VcdLines

namespace BusBench

theorem Pin.width_le (pin : Pin) : pin.width ≤ 32 := by
  cases pin <;> decide

/-- The level of a bit of a pin. -/
def Pins.bit (p : Pins) (pin : Pin) (i : Nat) : Bool := (p.value pin).toNat.testBit i

theorem Pins.bit_of_width_le {p : Pins} {pin : Pin} {i : Nat} (h : pin.width ≤ i) :
    p.bit pin i = false :=
  Nat.testBit_lt_two_pow ((p.value_lt pin).trans_le (Nat.pow_le_pow_right (by decide) h))

theorem popCount_eq_countP {w : Word} {n : Nat} (hn : n ≤ 32)
    (h : ∀ i, n ≤ i → w.toNat.testBit i = false) :
    popCount w = (List.range n).countP w.toNat.testBit := by
  have hhigh : ((List.range (32 - n)).map (n + ·)).countP w.toNat.testBit = 0 := by
    rw [List.countP_eq_zero]
    intro i hi
    obtain ⟨j, -, rfl⟩ := List.mem_map.mp hi
    rw [h (n + j) (Nat.le_add_right n j)]
    decide
  rw [popCount, ← List.countP_eq_length_filter, show 32 = n + (32 - n) by omega, List.range_add,
    List.countP_append, hhigh, Nat.add_zero]

/-- A bit of a pin goes to a level from one sample to the next. -/
def turns (level : Bool) (pin : Pin) (x : Pins × Pins) (i : Nat) : Bool :=
  x.1.bit pin i != level && x.2.bit pin i == level

/-- The number of bits of a pin that go to a level. -/
def turned (level : Bool) (pin : Pin) (x : Pins × Pins) : Nat :=
  (List.range pin.width).countP (turns level pin x)

section

variable {p q : Pins} {pin : Pin} {level : Bool} {i : Nat}

theorem turns_of_width_le (h : pin.width ≤ i) : turns level pin (p, q) i = false := by
  cases level <;> simp [turns, Pins.bit_of_width_le h]

theorem testBit_rose :
    (~~~ p.value pin &&& q.value pin).toNat.testBit i = turns true pin (p, q) i := by
  by_cases hi : i < 32
  · change (~~~ p.value pin &&& q.value pin).toBitVec.getLsbD i = _
    rw [UInt32.toBitVec_and, UInt32.toBitVec_not, BitVec.getLsbD_and, BitVec.getLsbD_not,
      decide_eq_true hi, Bool.true_and]
    change (!p.bit pin i && q.bit pin i) = _
    simp [turns]
  · rw [turns_of_width_le (pin.width_le.trans (Nat.le_of_not_lt hi))]
    exact Nat.testBit_lt_two_pow ((UInt32.toNat_lt _).trans_le
      (Nat.pow_le_pow_right (by decide) (Nat.le_of_not_lt hi)))

/-- A fall is a rise backwards. -/
theorem testBit_fell :
    (p.value pin &&& ~~~ q.value pin).toNat.testBit i = turns false pin (p, q) i := by
  rw [UInt32.and_comm, testBit_rose, turns, turns]
  cases p.bit pin i <;> cases q.bit pin i <;> rfl

theorem popCount_rose : popCount (~~~ p.value pin &&& q.value pin) = turned true pin (p, q) := by
  rw [popCount_eq_countP pin.width_le fun i hi => by rw [testBit_rose, turns_of_width_le hi]]
  exact List.countP_congr fun i _ => by rw [testBit_rose]

theorem popCount_fell : popCount (p.value pin &&& ~~~ q.value pin) = turned false pin (p, q) := by
  rw [popCount_eq_countP pin.width_le fun i hi => by rw [testBit_fell, turns_of_width_le hi]]
  exact List.countP_congr fun i _ => by rw [testBit_fell]

theorem popCount_value : popCount (p.value pin) = (List.range pin.width).countP (p.bit pin) :=
  popCount_eq_countP pin.width_le fun _ hi => Pins.bit_of_width_le hi

/-- The bits that are set change by those that rise and those that fall. -/
theorem turned_add_popCount (p q : Pins) (pin : Pin) :
    turned true pin (p, q) + popCount (p.value pin) =
      turned false pin (p, q) + popCount (q.value pin) := by
  rw [popCount_value, popCount_value, turned, turned]
  induction List.range pin.width with
  | nil => rfl
  | cons i is ih =>
    simp only [List.countP_cons]
    cases hp : p.bit pin i <;> cases hq : q.bit pin i <;> simp [turns, hp, hq] <;> omega

end

/-- What is kept of a pin, from what its bits did between samples. -/
structure Toggles.Tells (t : Toggles) (xs : List (Pins × Pins)) : Prop where
  rises : t.rises = (xs.map (turned true t.pin)).sum
  falls : t.falls = (xs.map (turned false t.pin)).sum
  rose : ∀ i, t.rose.toNat.testBit i = xs.any (turns true t.pin · i)
  fell : ∀ i, t.fell.toNat.testBit i = xs.any (turns false t.pin · i)

namespace Toggles

variable {t : Toggles} {xs : List (Pins × Pins)}

theorem tells_new (pin : Pin) : Tells { pin } [] :=
  ⟨rfl, rfl, fun _ => Nat.zero_testBit _, fun _ => Nat.zero_testBit _⟩

theorem Tells.observe (h : t.Tells xs) (last now : Pins) :
    (t.observe last now).Tells (xs ++ [(last, now)]) where
  rises := by
    have hpin : (t.observe last now).pin = t.pin := rfl
    rw [List.map_append, List.sum_append, hpin, ← h.rises, List.map_singleton,
      List.sum_singleton, ← popCount_rose]
    rfl
  falls := by
    have hpin : (t.observe last now).pin = t.pin := rfl
    rw [List.map_append, List.sum_append, hpin, ← h.falls, List.map_singleton,
      List.sum_singleton, ← popCount_fell]
    rfl
  rose := by
    intro i
    have hpin : (t.observe last now).pin = t.pin := rfl
    rw [List.any_append, hpin, ← h.rose, List.any_cons, List.any_nil, Bool.or_false,
      ← testBit_rose, ← Nat.testBit_or, ← UInt32.toNat_or]
    rfl
  fell := by
    intro i
    have hpin : (t.observe last now).pin = t.pin := rfl
    rw [List.any_append, hpin, ← h.fell, List.any_cons, List.any_nil, Bool.or_false,
      ← testBit_fell, ← Nat.testBit_or, ← UInt32.toNat_or]
    rfl

theorem Tells.covered (h : t.Tells xs) : t.covered = (List.range t.pin.width).countP fun i =>
    xs.any (turns true t.pin · i) && xs.any (turns false t.pin · i) := by
  have hbit : ∀ i, (t.rose &&& t.fell).toNat.testBit i =
      (xs.any (turns true t.pin · i) && xs.any (turns false t.pin · i)) := by
    intro i
    rw [UInt32.toNat_and, Nat.testBit_and, h.rose, h.fell]
  have hhigh : ∀ i, t.pin.width ≤ i → (t.rose &&& t.fell).toNat.testBit i = false := by
    intro i hi
    rw [hbit]
    simp [turns_of_width_le hi]
  rw [Toggles.covered, popCount_eq_countP t.pin.width_le hhigh]
  exact List.countP_congr fun i _ => by rw [hbit]

theorem countP_or_le (is : List Nat) (f g : Nat → Bool) :
    is.countP (fun i => f i || g i) ≤ is.countP f + is.countP g := by
  induction is with
  | nil => exact Nat.le_refl 0
  | cons i is ih =>
    simp only [List.countP_cons]
    cases f i <;> cases g i <;> simp <;> omega

/-- Bits that went to a level at least once are no more than the times that bits did. -/
theorem countP_any_le (level : Bool) (pin : Pin) (xs : List (Pins × Pins)) :
    (List.range pin.width).countP (fun i => xs.any (turns level pin · i)) ≤
      (xs.map (turned level pin)).sum := by
  induction xs with
  | nil => simp
  | cons x xs ih =>
    simp only [List.any_cons, List.map_cons, List.sum_cons]
    calc (List.range pin.width).countP
          (fun i => turns level pin x i || xs.any (turns level pin · i))
        ≤ turned level pin x +
            (List.range pin.width).countP (fun i => xs.any (turns level pin · i)) :=
          countP_or_le _ _ _
      _ ≤ _ := Nat.add_le_add_left ih _

theorem Tells.covered_le (h : t.Tells xs) :
    t.covered ≤ t.pin.width ∧ t.covered ≤ t.rises ∧ t.covered ≤ t.falls := by
  rw [h.covered, h.rises, h.falls]
  refine ⟨?_, ?_, ?_⟩
  · simpa using List.countP_le_length (l := List.range t.pin.width)
  · refine le_trans (List.countP_mono_left fun i _ hi => ?_) (countP_any_le true t.pin xs)
    exact (Bool.and_eq_true_iff.mp hi).1
  · refine le_trans (List.countP_mono_left fun i _ hi => ?_) (countP_any_le false t.pin xs)
    exact (Bool.and_eq_true_iff.mp hi).2

end Toggles

namespace Coverage

variable {c : Coverage} {first last : Pins} {vs : List Pins}

/-- The coverage of samples, taken one after the other. -/
def ofSamples (vs : List Pins) : Coverage := vs.foldl (fun c p => c.sample p) {}

/-- Each sample with the next one. -/
def steps (vs : List Pins) : List (Pins × Pins) := vs.zip vs.tail

theorem steps_concat (vs : List Pins) (p q : Pins) :
    steps (vs ++ [p] ++ [q]) = steps (vs ++ [p]) ++ [(p, q)] := by
  induction vs with
  | nil => rfl
  | cons v vs ih =>
    have hnext : ∀ ws : List Pins, steps (v :: ws) = (ws.head?.map (v, ·)).toList ++ steps ws := by
      intro ws
      cases ws <;> rfl
    simp only [List.cons_append, hnext, ih]
    cases vs <;> rfl

/-- What rises and falls from sample to sample makes up the difference of the two ends. -/
theorem turned_steps_add_popCount (pin : Pin) (hlast : last ∈ (first :: vs).getLast?) :
    ((steps (first :: vs)).map (turned true pin)).sum + popCount (first.value pin) =
      ((steps (first :: vs)).map (turned false pin)).sum + popCount (last.value pin) := by
  induction vs generalizing first with
  | nil =>
    obtain rfl : first = last := by simpa using hlast
    rfl
  | cons next vs ih =>
    rw [List.getLast?_cons_cons] at hlast
    have hrest := ih hlast
    have hstep := turned_add_popCount first next pin
    have hcons : steps (first :: next :: vs) = (first, next) :: steps (next :: vs) := rfl
    rw [hcons, List.map_cons, List.map_cons, List.sum_cons, List.sum_cons]
    omega

theorem toggles_of_first (h : c.last = none) (now : Pins) :
    (c.sample now).toggles = c.toggles := by
  simp [sample, h]

theorem toggles_of_last (h : c.last = some last) (now : Pins) :
    (c.sample now).toggles = c.toggles.map (·.observe last now) := by
  simp [sample, h, compare]

/-- A rising clock with a flag set: one handshake. -/
def handshake (flag : Pins → Bool) (x : Pins × Pins) : Bool :=
  !x.1.clock && x.2.clock && flag x.2

/-- What a coverage has kept of samples. -/
structure Tells (c : Coverage) (vs : List Pins) : Prop where
  samples : c.samples = vs.length
  last : c.last = vs.getLast?
  reads : c.readHandshakes = (steps vs).countP (handshake Pins.readDataValid)
  writes : c.writeHandshakes = (steps vs).countP (handshake Pins.writeRespValid)
  pins : c.toggles.map (·.pin) = Pin.all
  toggles : ∀ t ∈ c.toggles, t.Tells (steps vs)

theorem tells_new : Tells {} [] := by
  refine ⟨rfl, rfl, rfl, rfl, rfl, ?_⟩
  intro t ht
  obtain ⟨pin, -, rfl⟩ := List.mem_map.mp ht
  exact Toggles.tells_new pin

theorem Tells.sample_first (h : c.Tells []) (p : Pins) : (c.sample p).Tells [p] := by
  obtain ⟨hreads, hwrites⟩ := sample_of_first h.last p
  have htoggles := toggles_of_first h.last p
  exact ⟨by rw [sample_samples, h.samples]; rfl, rfl, hreads.trans h.reads,
    hwrites.trans h.writes, by rw [htoggles, h.pins], by rw [htoggles]; exact h.toggles⟩

theorem Tells.sample_next {p : Pins} (h : c.Tells (vs ++ [p])) (q : Pins) :
    (c.sample q).Tells (vs ++ [p] ++ [q]) := by
  have hlast : c.last = some p := by rw [h.last, List.getLast?_concat]
  obtain ⟨hreads, hwrites⟩ := sample_of_last hlast q
  have htoggles := toggles_of_last hlast q
  have hcount : ∀ flag, (steps (vs ++ [p] ++ [q])).countP (handshake flag) =
      (steps (vs ++ [p])).countP (handshake flag) + (!p.clock && q.clock && flag q).toNat := by
    intro flag
    rw [steps_concat, List.countP_append, List.countP_singleton, Bool.toNat, Bool.cond_eq_ite]
    rfl
  refine ⟨?_, ?_, ?_, ?_, ?_, ?_⟩
  · simp [sample_samples, h.samples]
  · rw [sample_last, List.getLast?_concat]
  · rw [hreads, h.reads, hcount]
  · rw [hwrites, h.writes, hcount]
  · rw [htoggles, List.map_map, ← h.pins]
    rfl
  · rw [htoggles, steps_concat]
    intro t' ht'
    obtain ⟨t, ht, rfl⟩ := List.mem_map.mp ht'
    exact (h.toggles t ht).observe p q

theorem ofSamples_concat (vs : List Pins) (p : Pins) :
    ofSamples (vs ++ [p]) = (ofSamples vs).sample p := by
  simp [ofSamples]

theorem ofSamples_tells (vs : List Pins) : (ofSamples vs).Tells vs := by
  induction vs using List.reverseRecOn with
  | nil => exact tells_new
  | append_singleton vs q ih =>
    rw [ofSamples_concat]
    rcases List.eq_nil_or_concat vs with rfl | ⟨vs, p, rfl⟩
    · exact ih.sample_first q
    · rw [List.concat_eq_append] at ih ⊢
      exact ih.sample_next q

theorem Tells.bits (h : c.Tells vs) : c.bits = 142 := by
  have hsum : ∀ ts : List Toggles,
      ts.foldr (fun t n => t.pin.width + n) 0 = ((ts.map (·.pin)).map Pin.width).sum := by
    intro ts
    rw [List.map_map, List.sum, List.foldr_map]
    rfl
  rw [Coverage.bits, hsum, h.pins]
  rfl

theorem Tells.covered_le_bits (h : c.Tells vs) : c.covered ≤ c.bits := by
  have hle : ∀ t ∈ c.toggles, t.covered ≤ t.pin.width := fun t ht =>
    (h.toggles t ht).covered_le.1
  rw [Coverage.covered, Coverage.bits]
  generalize c.toggles = ts at hle
  induction ts with
  | nil => exact Nat.le_refl 0
  | cons t ts ih =>
    rw [List.forall_mem_cons] at hle
    exact Nat.add_le_add hle.1 (ih hle.2)

/-- The coverage of samples counts what each bit of each pin did between a sample and the next;
a bit is covered if it rose somewhere and fell somewhere. -/
theorem counts_toggles (vs : List Pins) :
    (ofSamples vs).samples = vs.length ∧
      (ofSamples vs).readHandshakes = (steps vs).countP (handshake Pins.readDataValid) ∧
      (ofSamples vs).writeHandshakes = (steps vs).countP (handshake Pins.writeRespValid) ∧
      (ofSamples vs).toggles.map (·.pin) = Pin.all ∧
      (∀ t ∈ (ofSamples vs).toggles,
        t.rises = ((steps vs).map (turned true t.pin)).sum ∧
        t.falls = ((steps vs).map (turned false t.pin)).sum ∧
        (t.covered = (List.range t.pin.width).countP fun i =>
          (steps vs).any (turns true t.pin · i) && (steps vs).any (turns false t.pin · i)) ∧
        t.covered ≤ t.pin.width ∧ t.covered ≤ t.rises ∧ t.covered ≤ t.falls ∧
        ∀ first ∈ vs.head?, ∀ last ∈ vs.getLast?,
          (t.rises : ℤ) - t.falls =
            popCount (last.value t.pin) - popCount (first.value t.pin)) ∧
      (ofSamples vs).bits = 142 ∧ (ofSamples vs).covered ≤ 142 ∧
      ∃ x, (ofSamples vs).fraction.toRat? = some x ∧ 0 ≤ x ∧ x ≤ 1 := by
  have h := ofSamples_tells vs
  have hbits := h.bits
  have hcovered := h.covered_le_bits
  refine ⟨h.samples, h.reads, h.writes, h.pins, ?_, hbits, hbits ▸ hcovered,
    Binary64.ofRatio_le_one (by omega) hcovered⟩
  intro t ht
  have ht := h.toggles t ht
  obtain ⟨hwidth, hrises, hfalls⟩ := ht.covered_le
  refine ⟨ht.rises, ht.falls, ht.covered, hwidth, hrises, hfalls, ?_⟩
  intro first hfirst last hlast
  obtain ⟨rest, rfl⟩ := List.head?_eq_some_iff.mp hfirst
  have hends := turned_steps_add_popCount t.pin hlast
  rw [← ht.rises, ← ht.falls] at hends
  omega

end Coverage

end BusBench

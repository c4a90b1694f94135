import BusBench.Proofs.Observers
import BusBench.Proofs.VcdLines
import Mathlib.Data.List.Induction
import Mathlib.Data.List.Nodup

namespace BusBench

theorem Pin.mem_all (pin : Pin) : pin ∈ Pin.all := by
  cases pin <;> decide

theorem Pin.names_nodup : (Pin.all.map Pin.name).Nodup := by
  decide

theorem Pin.name_inj {pin pin' : Pin} (h : pin.name = pin'.name) : pin = pin' :=
  List.inj_on_of_nodup_map Pin.names_nodup pin.mem_all pin'.mem_all h

theorem Pins.values_eq_iff {p q : Pins} :
    p.values = q.values ↔ ∀ pin, p.value pin = q.value pin := by
  unfold values
  rw [List.map_inj_left]
  exact ⟨fun h pin => h pin pin.mem_all, fun h pin _ => h pin⟩

namespace Vcd

/-- The lines of samples that follow an earlier one, if there is any. -/
def dumpedLines : Option Pins → List (Nat × Pins) → List (List Char)
  | _, [] => []
  | last, (tick, p) :: rest => sampleLines tick p last ++ dumpedLines (some p) rest

/-- What samples that follow an earlier one add to a dump. -/
def deltas : Option Pins → List (Nat × Pins) → List Block
  | _, [] => []
  | last, (tick, p) :: rest => delta tick p last ++ deltas (some p) rest

variable {last : Option Pins} {samples earlier later : List (Nat × Pins)} {tick : Nat} {p q : Pins}

theorem newline_not_mem_dumpedLines : ∀ l ∈ dumpedLines last samples, '\n' ∉ l := by
  induction samples generalizing last with
  | nil => exact fun l hl => absurd hl List.not_mem_nil
  | cons x rest ih =>
    exact List.forall_mem_append.mpr ⟨newline_not_mem_sampleLines x.1 x.2 last, ih⟩

theorem readBody_dumpedLines :
    readBody (coded.map wire) (dumpedLines last samples) = some ([], deltas last samples) := by
  induction samples generalizing last with
  | nil => rfl
  | cons x rest ih => exact readBody_sampleLines x.1 x.2 last ih

theorem record_headed {v : Vcd} (hlimit : v.medium.limit = none) (hheaded : v.headed = true)
    (tick : Nat) (p : Pins) :
    record tick p v =
      (.ok (), { v with
        medium.text := v.medium.text ++ String.join (sample tick p v.last), last := some p }) := by
  have hstart : v.start = (.ok (), v) := by simp [start, hheaded]
  rw [record, hstart]
  simp only [Medium.putAll_unlimited hlimit]

theorem feed_headed {v : Vcd} (samples : List (Nat × Pins)) (hlimit : v.medium.limit = none)
    (hheaded : v.headed = true) :
    ∃ w, sink.feed samples v = (.ok (), w) ∧ w.headed = true ∧
      w.medium.text.toList = v.medium.text.toList ++ unlines (dumpedLines v.last samples) := by
  induction samples generalizing v with
  | nil => exact ⟨v, rfl, hheaded, by simp [dumpedLines, unlines]⟩
  | cons x rest ih =>
    obtain ⟨tick, p⟩ := x
    have hrecord := record_headed hlimit hheaded tick p
    obtain ⟨w, hfeed, hw, htext⟩ := ih (v := (record tick p v).2) (by rw [hrecord]; exact hlimit)
      (by rw [hrecord]; exact hheaded)
    refine ⟨w, ?_, hw, ?_⟩
    · have hsample : sink.sample tick p v = (.ok (), (record tick p v).2) := by
        rw [hrecord]
        exact hrecord
      rw [TraceSink.feed, hsample]
      exact hfeed
    · rw [htext, hrecord]
      simp only [String.toList_append, String.toList_join, sample_chars, dumpedLines, unlines,
        List.flatMap_append, List.append_assoc]

/-- A dump that holds its header and nothing else. -/
def begun (timescale : String) : Vcd :=
  { medium := { text := String.join (header timescale) }, timescale, headed := true }

theorem start_fresh (timescale : String) : start { timescale } = (.ok (), begun timescale) := by
  simp [start, Medium.putAll_unlimited, begun]

theorem start_headed {v : Vcd} (h : v.headed = true) : v.start = (.ok (), v) := by
  simp [start, h]

/-- A dump that is shown samples and closed holds the lines of the header and of the samples. -/
theorem feed_close (timescale : String) (samples : List (Nat × Pins)) :
    ∃ v w, sink.feed samples { timescale } = (.ok (), v) ∧ sink.close v = (.ok (), w) ∧
      w.medium.text.toList =
        unlines (headerLines timescale ++ lastDefinition :: dumpedLines none samples) := by
  obtain ⟨w, hfeed, hw, htext⟩ :=
    feed_headed (v := begun timescale) samples rfl rfl
  have htext' : w.medium.text.toList =
      unlines (headerLines timescale ++ lastDefinition :: dumpedLines none samples) := by
    rw [htext, begun, String.toList_join, header_chars]
    simp [unlines]
  cases samples with
  | nil =>
    -- Without a sample it is the closing that writes the header.
    rw [TraceSink.feed] at hfeed
    obtain ⟨_, hbegun⟩ := Prod.mk.inj hfeed
    refine ⟨{ timescale }, w, rfl, ?_, htext'⟩
    rw [← hbegun]
    exact start_fresh timescale
  | cons x rest =>
    refine ⟨w, w, ?_, start_headed hw, htext'⟩
    have hrecord : sink.sample x.1 x.2 { timescale } = sink.sample x.1 x.2 (begun timescale) := by
      simp only [sink, record, start_fresh, start_headed (v := begun timescale) rfl]
    rw [TraceSink.feed] at hfeed ⊢
    rwa [hrecord]

/-- The dump of samples reads as its wires and what each sample adds. -/
theorem read_dump {timescale : String} (h : '\n' ∉ timescale.toList)
    (samples : List (Nat × Pins)) :
    ∃ v w, sink.feed samples { timescale } = (.ok (), v) ∧ sink.close v = (.ok (), w) ∧
      read w.medium.text = some ⟨coded.map wire, deltas none samples⟩ := by
  obtain ⟨v, w, hfeed, hclose, htext⟩ := feed_close timescale samples
  have hblocks : readBody ((headerLines timescale).filterMap readWire) (dumpedLines none samples) =
      some ([], deltas none samples) := by
    rw [headerLines_wires]
    exact readBody_dumpedLines
  have hread := read_unlines htext (headerLines_plain h) newline_not_mem_dumpedLines hblocks
  rw [headerLines_wires] at hread
  exact ⟨v, w, hfeed, hclose, hread⟩

theorem delta_tick {b : Block} (h : b ∈ delta tick p last) : b.tick = tick := by
  cases last with
  | none => rw [List.mem_singleton.mp h]
  | some last =>
    simp only [delta] at h
    split at h
    · exact absurd h List.not_mem_nil
    · rw [List.mem_singleton.mp h]

theorem deltas_ticks (last : Option Pins) (samples : List (Nat × Pins)) :
    ((deltas last samples).map (·.tick)).Sublist (samples.map (·.1)) := by
  induction samples generalizing last with
  | nil => exact List.Sublist.refl _
  | cons x rest ih =>
    have hfirst : ((delta x.1 x.2 last).map (·.tick)).Sublist [x.1] := by
      cases last with
      | none => exact List.Sublist.refl _
      | some last =>
        simp only [delta]
        split
        · exact List.nil_sublist _
        · exact List.Sublist.refl _
    rw [deltas, List.map_append]
    exact hfirst.append (ih (some x.2))

theorem deltas_append (earlier later : List (Nat × Pins)) (tick : Nat) (p : Pins) :
    deltas last (earlier ++ (tick, p) :: later) =
      deltas last (earlier ++ [(tick, p)]) ++ deltas (some p) later := by
  induction earlier generalizing last with
  | nil => simp [deltas]
  | cons x rest ih => simp only [List.cons_append, deltas, ih, List.append_assoc]

theorem deltas_forall (last : Option Pins) (P : Nat → Prop) (h : ∀ x ∈ samples, P x.1) :
    ∀ b ∈ deltas last samples, P b.tick := by
  intro b hb
  have hmem := (deltas_ticks last samples).subset (List.mem_map_of_mem hb)
  obtain ⟨x, hx, heq⟩ := List.mem_map.mp hmem
  rw [← heq]
  exact h x hx

theorem replay_listed (t : Nat) (p : Pins) (pins : List Pin) (levels : String → Option Nat)
    (pin : Pin) :
    Block.replay levels ⟨t, listed p pins⟩ pin.name =
      if pin ∈ pins then some (p.value pin).toNat else levels pin.name := by
  induction pins generalizing levels with
  | nil => rfl
  | cons first pins ih =>
    have hstep : Block.replay levels ⟨t, listed p (first :: pins)⟩ =
        Block.replay (Function.update levels first.name (some (p.value first).toNat))
          ⟨t, listed p pins⟩ := rfl
    rw [hstep, ih]
    by_cases heq : pin = first
    · simp [heq]
    · have hname : pin.name ≠ first.name := fun h => heq (Pin.name_inj h)
      simp [heq, Function.update_of_ne hname]

/-- After what samples add, each pin stands at its value in the last of them. -/
theorem replay_deltas (earlier : List (Nat × Pins)) (tick : Nat) (p : Pins) (pin : Pin) :
    (deltas none (earlier ++ [(tick, p)])).foldl Block.replay (fun _ => none) pin.name =
      some (p.value pin).toNat := by
  -- The last sample changes what the samples before it left, so they are taken off the end.
  induction earlier using List.reverseRecOn generalizing tick p with
  | nil =>
    have hfirst := replay_listed tick p Pin.all (fun _ => none) pin
    rwa [if_pos pin.mem_all] at hfirst
  | append_singleton earlier x ih =>
    obtain ⟨t, q⟩ := x
    have hlast := ih t q
    rw [List.append_assoc, List.singleton_append, deltas_append, List.foldl_append]
    simp only [deltas, delta, List.append_nil]
    split
    next heq =>
      rw [← Pins.values_eq_iff.mp heq pin]
      exact hlast
    next hne =>
      rw [List.foldl_cons, List.foldl_nil, replay_listed]
      by_cases hpin : q.value pin = p.value pin
      · simpa [hpin] using hlast
      · simp [hpin, pin.mem_all]

theorem ticks_around (h : ((earlier ++ (tick, p) :: later).map Prod.fst).Pairwise (· < ·)) :
    (∀ x ∈ earlier, x.1 < tick) ∧ ∀ x ∈ later, tick < x.1 := by
  rw [List.map_append, List.map_cons, List.pairwise_append, List.pairwise_cons] at h
  obtain ⟨_, ⟨hlater, _⟩, hearlier⟩ := h
  refine ⟨?_, ?_⟩
  · intro x hx
    exact hearlier x.1 (List.mem_map_of_mem hx) tick List.mem_cons_self
  · intro x hx
    exact hlater x.1 (List.mem_map_of_mem hx)

theorem levels_at (wires : List Wire) (hearlier : ∀ x ∈ earlier, x.1 < tick)
    (hlater : ∀ x ∈ later, tick < x.1) (pin : Pin) :
    (Dump.mk wires (deltas none (earlier ++ (tick, p) :: later))).levels tick pin.name =
      some (p.value pin).toNat := by
  have hdone : ∀ b ∈ deltas none (earlier ++ [(tick, p)]), decide (b.tick ≤ tick) = true := by
    have hle : ∀ x ∈ earlier ++ [(tick, p)], x.1 ≤ tick := by
      intro x hx
      rcases List.mem_append.mp hx with hx | hx
      · exact (hearlier x hx).le
      · rw [List.mem_singleton.mp hx]
    intro b hb
    exact decide_eq_true (deltas_forall none (· ≤ tick) hle b hb)
  have hrest : (deltas (some p) later).takeWhile (fun b => decide (b.tick ≤ tick)) = [] := by
    have hgt := deltas_forall (some p) (tick < ·) hlater
    cases hblocks : deltas (some p) later with
    | nil => rfl
    | cons b blocks =>
      have hb : tick < b.tick := hgt b (by rw [hblocks]; exact List.mem_cons_self)
      exact List.takeWhile_cons_of_neg (by simpa using hb)
  rw [Dump.levels, deltas_append, List.takeWhile_append_of_pos hdone, hrest, List.append_nil]
  exact replay_deltas earlier tick p pin

/-- What stands under the marker of a tick is what the sample at that tick adds. -/
theorem mem_deltas_at {s t : Nat} (hearlier : ∀ x ∈ earlier ++ [(s, p)], x.1 < t)
    (hlater : ∀ x ∈ later, t < x.1) (b : Block) :
    b ∈ deltas none (earlier ++ (s, p) :: (t, q) :: later) ∧ b.tick = t ↔
      b ∈ delta t q (some p) := by
  have hbefore := deltas_forall none (· < t) hearlier
  have hafter := deltas_forall (some q) (t < ·) hlater
  rw [deltas_append, deltas]
  constructor
  · rintro ⟨hb, htick⟩
    rcases List.mem_append.mp hb with hb | hb
    · exact absurd htick (hbefore b hb).ne
    · rcases List.mem_append.mp hb with hb | hb
      · exact hb
      · exact absurd htick (hafter b hb).ne'
  · intro hb
    exact ⟨List.mem_append_right _ (List.mem_append_left _ hb), delta_tick hb⟩

/-- A dump that tells the history of the pins, and no more. -/
structure Dump.Tells (d : Dump) (samples : List (Nat × Pins)) : Prop where
  wires : d.wires.map (fun w => (w.name, w.width)) = Pin.all.map fun pin => (pin.name, pin.width)
  /-- At every sampled tick the wires stand at the values of the sample. -/
  levels : ∀ x ∈ samples,
    Pin.all.map (fun pin => d.levels x.1 pin.name) = x.2.values.map fun v => some v.toNat
  /-- Markers stand in order, at sampled ticks only, and none twice. -/
  markers : (d.blocks.map (·.tick)).Sublist (samples.map (·.1))
  first : ∀ x ∈ samples.head?, d.blocks.head? = some ⟨x.1, listed x.2 Pin.all⟩
  /-- A later sample has a marker if and only if it differs from the one before. -/
  marked : ∀ s p t q, [(s, p), (t, q)] <:+: samples →
    ((∃ b ∈ d.blocks, b.tick = t) ↔ p.values ≠ q.values)
  /-- Under it stand the pins that differ, in the order of the layout. -/
  changes : ∀ s p t q, [(s, p), (t, q)] <:+: samples → ∀ b ∈ d.blocks, b.tick = t →
    b.changes = listed q (Pin.all.filter fun pin => p.value pin != q.value pin)

theorem deltas_tell (hticks : (samples.map Prod.fst).Pairwise (· < ·)) :
    Dump.Tells ⟨coded.map wire, deltas none samples⟩ samples := by
  have hadded : ∀ s p t q, [(s, p), (t, q)] <:+: samples →
      ∀ b, b ∈ deltas none samples ∧ b.tick = t ↔ b ∈ delta t q (some p) := by
    rintro s p t q ⟨earlier, later, hsamples⟩
    have hsplit : samples = (earlier ++ [(s, p)]) ++ (t, q) :: later := by simp [← hsamples]
    rw [hsplit] at hticks ⊢
    obtain ⟨hearlier, hlater⟩ := ticks_around hticks
    rw [List.append_assoc, List.singleton_append]
    exact mem_deltas_at hearlier hlater
  refine ⟨?_, ?_, deltas_ticks none samples, ?_, ?_, ?_⟩
  · rw [List.map_map, ← coded_pins, List.map_map]
    rfl
  · rintro ⟨tick, p⟩ hx
    obtain ⟨earlier, later, rfl⟩ := List.append_of_mem hx
    obtain ⟨hearlier, hlater⟩ := ticks_around hticks
    rw [Pins.values, List.map_map]
    apply List.map_congr_left
    intro pin _
    exact levels_at (coded.map wire) hearlier hlater pin
  · intro x hx
    cases samples with
    | nil => cases hx
    | cons y rest =>
      obtain rfl := Option.some.inj hx
      rfl
  · intro s p t q hinfix
    have hmem := hadded s p t q hinfix
    constructor
    · rintro ⟨b, hb, htick⟩ heq
      have hadd := (hmem b).mp ⟨hb, htick⟩
      rw [delta, if_pos heq] at hadd
      exact absurd hadd List.not_mem_nil
    · intro hne
      obtain ⟨hb, htick⟩ := (hmem _).mpr (by
        rw [delta, if_neg hne]
        exact List.mem_singleton_self _)
      exact ⟨_, hb, htick⟩
  · intro s p t q hinfix b hb htick
    have hmem := (hadded s p t q hinfix b).mp ⟨hb, htick⟩
    simp only [delta] at hmem
    split at hmem
    · exact absurd hmem List.not_mem_nil
    · rw [List.mem_singleton.mp hmem]

/-- A dump that takes samples at rising ticks and is closed never fails, and what a reader finds in
it tells the history of the pins. -/
theorem dump_tells_history {timescale : String} {samples : List (Nat × Pins)}
    (hscale : '\n' ∉ timescale.toList) (hticks : (samples.map Prod.fst).Pairwise (· < ·)) :
    ∃ v w d, sink.feed samples { timescale } = (.ok (), v) ∧ sink.close v = (.ok (), w) ∧
      read w.medium.text = some d ∧ d.Tells samples := by
  obtain ⟨v, w, hfeed, hclose, hread⟩ := read_dump hscale samples
  exact ⟨v, w, _, hfeed, hclose, hread, deltas_tell hticks⟩

/-- Three samples, of which the second repeats the first but for a strobe bit that is not wired. -/
def repeated : List (Nat × Pins) :=
  [(0, { reset := true }), (3, { reset := true, writeStrobe := 0x10 }),
    (7, { clock := true, writeStrobe := 0xf5, readData := 0x80000001 })]

theorem dump_tells_history_of_repeated :
    ('\n' ∉ "$enddefinitions $end".toList ∧ (repeated.map Prod.fst).Pairwise (· < ·)) ∧
      ∃ v w d, sink.feed repeated { timescale := "$enddefinitions $end" } = (.ok (), v) ∧
        sink.close v = (.ok (), w) ∧ read w.medium.text = some d ∧
        (¬ ∃ b ∈ d.blocks, b.tick = 3) ∧
        ∃ b ∈ d.blocks, b.tick = 7 ∧ b.changes =
          [("reset", 0), ("clock", 1), ("read_data", 0x80000001), ("write_strobe", 5)] := by
  have hscale : '\n' ∉ "$enddefinitions $end".toList := by decide
  have hticks : (repeated.map Prod.fst).Pairwise (· < ·) := by decide
  refine ⟨⟨hscale, hticks⟩, ?_⟩
  obtain ⟨v, w, d, hfeed, hclose, hread, htells⟩ := dump_tells_history hscale hticks
  have hsecond := htells.marked 0 { reset := true } 3 _ ⟨[], [_], rfl⟩
  have hthird := htells.marked 3 _ 7 _ ⟨[_], [], rfl⟩
  obtain ⟨b, hb, htick⟩ := hthird.mpr (by decide)
  refine ⟨v, w, d, hfeed, hclose, hread, ?_, b, hb, htick, ?_⟩
  · rw [hsecond]
    decide
  · rw [htells.changes 3 _ 7 _ ⟨[_], [], rfl⟩ b hb htick]
    decide

end Vcd

end BusBench

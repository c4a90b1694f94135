import BusBench.Proofs.VcdDecoding

namespace BusBench

namespace Medium

variable {m : Medium} {n : Nat} {ps taken : List String}

/-- The pieces that still fit behind a text of limited size, up to the first that does not. -/
def Takes (n : Nat) (text : String) (ps taken : List String) : Prop :=
  ∃ next rest, ps = taken ++ next :: rest ∧ (text ++ String.join taken).utf8ByteSize ≤ n ∧
    n < (text ++ String.join taken ++ next).utf8ByteSize

theorem Takes.le {text : String} (h : Takes n text ps taken) :
    (text ++ String.join taken).utf8ByteSize ≤ n := by
  obtain ⟨_, _, _, hsize, _⟩ := h
  exact hsize

theorem Takes.lt {text : String} (h : Takes n text ps taken) :
    n < (text ++ String.join ps).utf8ByteSize := by
  obtain ⟨next, rest, rfl, _, hnext⟩ := h
  simp only [String.join_append, String.join_cons, String.utf8ByteSize_append] at hnext ⊢
  omega

/-- A limited medium takes all pieces, or those that fit. -/
theorem putAll_cases (hlimit : m.limit = some n) (hroom : m.text.utf8ByteSize ≤ n)
    (ps : List String) :
    (m.text ++ String.join ps).utf8ByteSize ≤ n ∧
        m.putAll ps = (.ok (), { m with text := m.text ++ String.join ps }) ∨
      ∃ taken, Takes n m.text ps taken ∧
        m.putAll ps = (.error (.refused "disk full"),
          { m with text := m.text ++ String.join taken }) := by
  induction ps generalizing m with
  | nil => exact .inl ⟨by simpa using hroom, by simp [putAll]⟩
  | cons p ps ih =>
    by_cases hp : (m.text ++ p).utf8ByteSize ≤ n
    · have hput : m.put p = (.ok (), { m with text := m.text ++ p }) := by
        rw [String.utf8ByteSize_append] at hp
        simp [put, fits, hlimit, hp]
      have hrest := ih (m := { m with text := m.text ++ p }) hlimit hp
      rw [putAll, hput]
      rcases hrest with ⟨hsize, hall⟩ | ⟨taken, ⟨next, rest, hps, hsize, hnext⟩, hall⟩
      · left
        rw [String.join_cons, ← String.append_assoc]
        exact ⟨hsize, hall⟩
      · right
        refine ⟨p :: taken, ⟨next, rest, by rw [hps]; rfl, ?_, ?_⟩, ?_⟩
        · rwa [String.join_cons, ← String.append_assoc]
        · rwa [String.join_cons, ← String.append_assoc]
        · rw [String.join_cons, ← String.append_assoc]
          exact hall
    · have hput : m.put p = (.error (.refused "disk full"), m) := by
        have hp' := hp
        rw [String.utf8ByteSize_append] at hp'
        have hempty : p ≠ "" := by
          rintro rfl
          simp at hp
          omega
        simp [put, fits, hlimit, hp', hempty]
      right
      refine ⟨[], ⟨p, ps, rfl, by simpa using hroom, by simpa using hp⟩, ?_⟩
      rw [putAll, hput]
      simp

/-- What a limited medium holds is the text of the first pieces, never too long, and of all pieces
if they fit. -/
theorem putAll_text (hlimit : m.limit = some n) (hroom : m.text.utf8ByteSize ≤ n)
    (ps : List String) :
    (m.putAll ps).2.text.utf8ByteSize ≤ n ∧
      (∃ rest, m.text ++ String.join ps = (m.putAll ps).2.text ++ rest) ∧
      ((m.text ++ String.join ps).utf8ByteSize ≤ n →
        (m.putAll ps).2.text = m.text ++ String.join ps) := by
  rcases putAll_cases hlimit hroom ps with ⟨hsize, hput⟩ | ⟨taken, htaken, hput⟩
  · rw [hput]
    exact ⟨hsize, ⟨"", String.append_empty.symm⟩, fun _ => rfl⟩
  · have hlt := htaken.lt
    obtain ⟨next, rest, hps, hsize, -⟩ := htaken
    rw [hput]
    refine ⟨hsize, ⟨String.join (next :: rest), ?_⟩, fun hle => absurd hlt hle.not_gt⟩
    rw [hps, String.join_append, String.append_assoc]

theorem putAll_append (m : Medium) (ps qs : List String) :
    m.putAll (ps ++ qs) =
      match m.putAll ps with
      | (.ok (), w) => w.putAll qs
      | (.error e, w) => (.error e, w) := by
  induction ps generalizing m with
  | nil => rfl
  | cons p ps ih =>
    rw [List.cons_append, putAll, putAll]
    rcases m.put p with ⟨_ | _, w⟩
    · rfl
    · exact ih w

end Medium

namespace Vcd

variable {v : Vcd} {w : Medium} {timescale : String} {samples : List (Nat × Pins)}
  {first again : List String} {n : Nat}

/-- The pieces of samples that follow an earlier one, if there is any. -/
def pieces : Option Pins → List (Nat × Pins) → List String
  | _, [] => []
  | last, (tick, p) :: rest => sample tick p last ++ pieces (some p) rest

/-- The text of a dump that was shown samples, up to the first that it failed on, and closed. -/
def written (samples : List (Nat × Pins)) (v : Vcd) : String :=
  (start (sink.feed samples v).2).2.medium.text

/-- Behind its header a dump takes the pieces of samples up to the first that is refused. -/
theorem feed_of_headed (samples : List (Nat × Pins)) (h : v.headed = true) :
    (sink.feed samples v).2.headed = true ∧
      (sink.feed samples v).2.medium = (v.medium.putAll (pieces v.last samples)).2 := by
  induction samples generalizing v with
  | nil => exact ⟨h, rfl⟩
  | cons x rest ih =>
    obtain ⟨tick, p⟩ := x
    rw [pieces, Medium.putAll_append]
    rcases hput : v.medium.putAll (sample tick p v.last) with ⟨e | _, w⟩
    · have hrecord : sink.sample tick p v = (.error e, { v with medium := w }) := by
        simp only [sink, record, start_headed h, hput]
      rw [TraceSink.feed, hrecord]
      exact ⟨h, rfl⟩
    · have hrecord : sink.sample tick p v =
          (.ok (), { v with medium := w, last := some p }) := by
        simp only [sink, record, start_headed h, hput]
      rw [TraceSink.feed, hrecord]
      exact ih (v := { v with medium := w, last := some p }) h

theorem start_of_header (hv : v.headed = false)
    (h : v.medium.putAll (header v.timescale) = (.ok (), w)) :
    v.start = (.ok (), { v with medium := w, headed := true }) := by
  simp only [start, hv, h, Bool.false_eq_true, if_false]

theorem start_of_cut {e : Fault} (hv : v.headed = false)
    (h : v.medium.putAll (header v.timescale) = (.error e, w)) :
    v.start = (.error e, { v with medium := w }) := by
  simp only [start, hv, h, Bool.false_eq_true, if_false]

/-- Once the header has its place, all that is written is written once. -/
theorem written_of_header (hv : v.headed = false)
    (h : v.medium.putAll (header v.timescale) = (.ok (), w)) :
    written samples v =
      (v.medium.putAll (header v.timescale ++ pieces v.last samples)).2.text := by
  have hstart := start_of_header hv h
  obtain ⟨hheaded, hmedium⟩ := feed_of_headed (v := { v with medium := w, headed := true })
    samples rfl
  simp only [Medium.putAll_append, h]
  cases samples with
  | nil => simp only [written, TraceSink.feed, hstart, pieces, Medium.putAll]
  | cons x rest =>
    have hrecord : sink.sample x.1 x.2 v =
        sink.sample x.1 x.2 { v with medium := w, headed := true } := by
      simp only [sink, record, hstart, start_headed]
    have hfeed : sink.feed (x :: rest) v =
        sink.feed (x :: rest) { v with medium := w, headed := true } := by
      rw [TraceSink.feed, TraceSink.feed, hrecord]
    rw [written, hfeed, start_headed hheaded, hmedium]

theorem written_of_cut {e : Fault} (hv : v.headed = false)
    (h : v.medium.putAll (header v.timescale) = (.error e, w)) :
    written samples v =
      if samples = [] then w.text else (w.putAll (header v.timescale)).2.text := by
  have hstart := start_of_cut hv h
  cases samples with
  | nil => simp only [written, TraceSink.feed, hstart, if_true]
  | cons x rest =>
    have hfeed : sink.feed (x :: rest) v = (.error e, { v with medium := w }) := by
      simp only [TraceSink.feed, sink, record, hstart]
    rw [written, hfeed, if_neg (List.cons_ne_nil x rest)]
    rcases hagain : w.putAll (header v.timescale) with ⟨_ | _, u⟩
    · rw [start_of_cut (v := { v with medium := w }) hv hagain]
    · rw [start_of_header (v := { v with medium := w }) hv hagain]

theorem written_unlimited (timescale : String) (samples : List (Nat × Pins)) :
    written samples { timescale } = String.join (header timescale ++ pieces none samples) := by
  rw [written_of_header rfl (Medium.putAll_unlimited rfl _), Medium.putAll_unlimited rfl,
    String.empty_append]

/-- No other piece of a header starts like the first. -/
theorem eq_date_of_mem_header (h : '\n' ∉ timescale.toList) {piece : String}
    (hpiece : piece ∈ header timescale) (hdate : "$date\n".toList <+: piece.toList) :
    piece = "$date\n" := by
  have hfixed : ∀ piece ∈ header "", "$date\n".toList <+: piece.toList → piece = "$date\n" := by
    unfold header
    rw [coded_eq]
    decide +kernel
  have hcases : piece = timescale ∨ piece ∈ header "" := by
    simp only [header, List.mem_append, List.mem_cons, List.not_mem_nil, or_false] at hpiece ⊢
    tauto
  rcases hcases with rfl | hmem
  · exact absurd (hdate.subset (by decide)) h
  · exact hfixed piece hmem hdate

/-- A header that is cut off and begun again reads as no header does, unless the second one is
empty. -/
theorem cut_twice_iff (h : '\n' ∉ timescale.toList)
    (hfirst : Medium.Takes n "" (header timescale) first)
    (hagain : Medium.Takes n (String.join first) (header timescale) again) (ps : List String) :
    (∃ rest, String.join (header timescale ++ ps) =
      String.join first ++ String.join again ++ rest) ↔ again = [] := by
  obtain ⟨next, later, hheader, -, hnext⟩ := hfirst
  obtain ⟨next', later', hheader', hsize, -⟩ := hagain
  have htail : String.join (header timescale ++ ps) =
      String.join first ++ (next ++ String.join (later ++ ps)) := by
    rw [hheader]
    simp [String.join_append]
  constructor
  · rintro ⟨rest, heq⟩
    by_contra hne
    obtain ⟨piece, again, rfl⟩ := List.exists_cons_of_ne_nil hne
    obtain rfl : piece = "$date\n" := (List.cons.inj hheader').1.symm
    have hchars : next.toList ++ (String.join (later ++ ps)).toList =
        "$date\n".toList ++ (String.join again ++ rest).toList := by
      rw [htail, String.join_cons] at heq
      simpa only [String.toList_append, List.append_assoc, List.append_cancel_left_eq]
        using congrArg String.toList heq
    -- What was refused is longer than the piece that now stands in its place.
    have hlonger : "$date\n".utf8ByteSize < next.utf8ByteSize := by
      rw [String.join_cons] at hsize
      simp only [String.utf8ByteSize_append, String.empty_append] at hsize hnext
      omega
    rcases List.prefix_or_prefix_of_prefix ⟨_, hchars⟩ (List.prefix_append _ _) with hle | hle
    · obtain ⟨cs, hcs⟩ := hle
      have hnext' : next ++ String.ofList cs = "$date\n" := by
        rw [← String.toList_inj, String.toList_append, String.toList_ofList, hcs]
      rw [← hnext', String.utf8ByteSize_append] at hlonger
      omega
    · have hmem : next ∈ header timescale := by
        rw [hheader]
        exact List.mem_append_right first List.mem_cons_self
      rw [eq_date_of_mem_header h hmem hle] at hlonger
      exact lt_irrefl _ hlonger
  · rintro rfl
    refine ⟨next ++ String.join (later ++ ps), ?_⟩
    rw [htail, String.join_nil, String.append_empty]

/-- How the text on a medium with a limit stands to the text of the same samples on a medium
without one. -/
structure Limited (timescale : String) (n : Nat) (sampled : Prop) (text full : String) : Prop where
  size : text.utf8ByteSize ≤ n
  whole : full.utf8ByteSize ≤ n → text = full
  /-- Behind a header that fits, the text is cut off at a piece that does not. -/
  fits : (String.join (header timescale)).utf8ByteSize ≤ n → ∃ rest, full = text ++ rest
  /-- A header that does not fit is cut off too, but is begun again where there was a sample. -/
  cut : n < (String.join (header timescale)).utf8ByteSize →
    ∃ first again rest, Medium.Takes n "" (header timescale) first ∧
      Medium.Takes n (String.join first) (header timescale) again ∧
      full = String.join first ++ rest ∧
      (¬ sampled → text = String.join first) ∧
      (sampled → text = String.join first ++ String.join again ∧
        ('\n' ∉ timescale.toList → ((∃ rest, full = text ++ rest) ↔ again = [])))

theorem written_of_fit (hfits : (String.join (header timescale)).utf8ByteSize ≤ n)
    (samples : List (Nat × Pins)) :
    written samples { medium := { limit := some n }, timescale } =
      (Medium.putAll { limit := some n } (header timescale ++ pieces none samples)).2.text := by
  rcases Medium.putAll_cases (m := { limit := some n }) rfl (Nat.zero_le n) (header timescale) with
    ⟨-, hput⟩ | ⟨taken, htaken, -⟩
  · exact written_of_header rfl hput
  · have hlt := htaken.lt
    rw [String.empty_append] at hlt
    omega

/-- Not even what is left behind the first pieces has room for all of a header that is too long. -/
theorem putAll_of_cut (hcut : n < (String.join (header timescale)).utf8ByteSize) {m : Medium}
    (hlimit : m.limit = some n) (hroom : m.text.utf8ByteSize ≤ n) :
    ∃ taken, Medium.Takes n m.text (header timescale) taken ∧
      m.putAll (header timescale) = (.error (.refused "disk full"),
        { m with text := m.text ++ String.join taken }) := by
  rcases Medium.putAll_cases hlimit hroom (header timescale) with ⟨hsize, -⟩ | htaken
  · rw [String.utf8ByteSize_append] at hsize
    omega
  · exact htaken

theorem written_twice (hcut : n < (String.join (header timescale)).utf8ByteSize)
    (samples : List (Nat × Pins)) :
    ∃ first again, Medium.Takes n "" (header timescale) first ∧
      Medium.Takes n (String.join first) (header timescale) again ∧
      written samples { medium := { limit := some n }, timescale } =
        if samples = [] then String.join first else String.join first ++ String.join again := by
  obtain ⟨first, hfirst, hput⟩ :=
    putAll_of_cut hcut (m := { limit := some n }) rfl (Nat.zero_le n)
  rw [String.empty_append] at hput
  obtain ⟨again, hagain, hput'⟩ :=
    putAll_of_cut hcut (m := { limit := some n, text := String.join first }) rfl hfirst.le
  exact ⟨first, again, hfirst, hagain, by rw [written_of_cut rfl hput, hput']⟩

theorem written_limited (timescale : String) (n : Nat) (samples : List (Nat × Pins)) :
    Limited timescale n (samples ≠ [])
      (written samples { medium := { limit := some n }, timescale })
      (written samples { timescale }) := by
  rw [written_unlimited]
  rcases Nat.lt_or_ge n (String.join (header timescale)).utf8ByteSize with hcut | hfits
  · obtain ⟨first, again, hfirst, hagain, htext⟩ := written_twice hcut samples
    obtain ⟨next, later, hheader, -, -⟩ := id hfirst
    have hfull : String.join (header timescale ++ pieces none samples) =
        String.join first ++ String.join (next :: later ++ pieces none samples) := by
      rw [hheader, List.append_assoc, String.join_append]
    refine ⟨?_, ?_, fun hfits => absurd hcut hfits.not_gt, fun _ =>
      ⟨first, again, _, hfirst, hagain, hfull, ?_, ?_⟩⟩
    · rw [htext]
      split
      · exact hfirst.le
      · exact hagain.le
    · intro hwhole
      rw [String.join_append, String.utf8ByteSize_append] at hwhole
      omega
    · intro hnone
      rw [htext, if_pos (not_not.mp hnone)]
    · intro hsome
      rw [htext, if_neg hsome]
      exact ⟨rfl, fun hscale => cut_twice_iff hscale hfirst hagain _⟩
  · obtain ⟨hsize, hrest, hwhole⟩ := Medium.putAll_text (m := { limit := some n }) rfl
      (Nat.zero_le n) (header timescale ++ pieces none samples)
    rw [String.empty_append] at hrest hwhole
    rw [written_of_fit hfits]
    exact ⟨hsize, hwhole, fun _ => hrest, fun hcut => absurd hcut hfits.not_gt⟩

end Vcd

namespace Rig

variable {σ κ : Type} {r : Rig σ Vcd κ}

/-- Runs that differ in their dumps end at the same tick and show the same samples, whatever the
dumps take of them. -/
theorem run_written (hdump : r.trace = Vcd.sink) (device : σ) (pins : Pins) (memory : Memory)
    (coverage : κ) :
    ∃ samples : List (Nat × Pins), ∀ v,
      (r.Stops (.fresh device pins memory v coverage) ↔ samples = []) ∧
      (r.run (.fresh device pins memory v coverage)).2.trace.medium.text =
        Vcd.written samples v := by
  let plain : Bench σ Unit Unit := .fresh device pins memory () ()
  obtain ⟨ticks, hstop, hgoes⟩ := exists_first_stop (r := r.bare) (b := plain) rfl
  refine ⟨r.bare.samples plain ticks, fun v => ?_⟩
  let b : Bench σ Vcd κ := .fresh device pins memory v coverage
  have hafter : ∀ m, r.Stops (r.after b m) ↔ r.bare.Stops (r.bare.after plain m) := by
    intro m
    rw [show plain = b.bare from rfl, ← after_bare]
    exact Iff.rfl
  constructor
  · have hnone : r.bare.samples plain ticks = [] ↔ ticks = 0 := by simp [samples]
    rw [hnone]
    constructor
    · intro h
      by_contra hne
      exact hgoes 0 (Nat.pos_of_ne_zero hne) ((hafter 0).mp h)
    · rintro rfl
      exact (hafter 0).mpr hstop
  · have htrace := run_trace (b := b) rfl rfl ((hafter ticks).mpr hstop)
      fun m hm h => hgoes m hm ((hafter m).mp h)
    rw [htrace, hdump, ← samples_bare]
    rfl

/-- After a run a medium with a limit holds a first part of what one without a limit holds after
the same run, if the header of the dump fits on it. If not, then closing the dump has begun its
header again behind the part that fitted. -/
theorem run_limited (hdump : r.trace = Vcd.sink) (device : σ) (pins : Pins) {memory : Memory}
    (timescale : String) (n : Nat) (coverage : κ) (hset : r.settings.check = .ok ())
    (hmem : memory.lo ≤ memory.hi) :
    ∃ b c,
      r.start device pins memory { medium := { limit := some n }, timescale } coverage = .ok b ∧
      r.start device pins memory { timescale } coverage = .ok c ∧
      Vcd.Limited timescale n (¬ r.Stops b) (r.run b).2.trace.medium.text
        (r.run c).2.trace.medium.text := by
  obtain ⟨samples, hsamples⟩ := run_written hdump device pins memory coverage
  refine ⟨_, _, start_eq_ok_iff.mpr ⟨hset, hmem, rfl⟩, start_eq_ok_iff.mpr ⟨hset, hmem, rfl⟩, ?_⟩
  rw [(hsamples _).2, (hsamples _).2, (hsamples _).1]
  exact Vcd.written_limited timescale n samples

/-- The short rig with a dump. -/
def dumpRig : Rig Playback Vcd Unit := ⟨Playback.device, Vcd.sink, .none, shortRig.settings⟩

/-- What the dump holds once the short rig has run. -/
def dumped (v : Vcd) : String :=
  (dumpRig.run (.fresh lateReader {} (.empty 0 0xff 0) v ())).2.trace.medium.text

theorem dumped_on_twenty_bytes :
    dumped { medium := { limit := some 20 } } = "$date\n$date\n" := by
  decide +kernel

theorem run_limited_to_twenty_bytes :
    dumpRig.trace = Vcd.sink ∧ dumpRig.settings.check = .ok () ∧
      (Memory.empty 0 0xff 0).lo ≤ (Memory.empty 0 0xff 0).hi ∧
      20 < (String.join (Vcd.header "1ns")).utf8ByteSize ∧
      dumped { medium := { limit := some 20 } } = "$date\n$date\n" ∧
      ¬ ∃ rest, dumped {} = dumped { medium := { limit := some 20 } } ++ rest := by
  obtain ⟨b, c, hb, hc, hlimited⟩ := run_limited (r := dumpRig) rfl lateReader {} "1ns" 20 () rfl
    (by decide : (Memory.empty 0 0xff 0).lo ≤ (Memory.empty 0 0xff 0).hi)
  obtain ⟨-, -, rfl⟩ := start_eq_ok_iff.mp hb
  obtain ⟨-, -, rfl⟩ := start_eq_ok_iff.mp hc
  have hheader : 20 < (String.join (Vcd.header "1ns")).utf8ByteSize := by decide +kernel
  refine ⟨rfl, rfl, by decide, hheader, dumped_on_twenty_bytes, ?_⟩
  obtain ⟨first, again, rest, -, hagain, -, -, hsampled⟩ := hlimited.cut hheader
  have hgoes : ¬ dumpRig.Stops (.fresh lateReader {} (.empty 0 0xff 0)
      { medium := { limit := some 20 } } ()) := by
    rw [stops_iff]
    decide
  obtain ⟨hboth, hiff⟩ := hsampled hgoes
  intro hrest
  obtain rfl := (hiff (by decide)).mp hrest
  -- Of a header begun again there would have been room for the first piece.
  obtain ⟨next, later, hnext, -, htoo⟩ := hagain
  obtain rfl : next = "$date\n" := (List.cons.inj hnext).1.symm
  rw [← hboth] at htoo
  change 20 < (dumped _ ++ _).utf8ByteSize at htoo
  rw [dumped_on_twenty_bytes] at htoo
  exact absurd htoo (by decide)

/-- A dump that is cut off in its header begins it again when it is closed; without a limit the
same dump holds one header. -/
theorem close_begins_header_again :
    ¬ ∀ n, ∃ rest, dumped {} = dumped { medium := { limit := some n } } ++ rest := by
  intro h
  obtain ⟨rest, hrest⟩ := h 20
  obtain ⟨samples, hsamples⟩ :=
    run_written (r := dumpRig) rfl lateReader {} (.empty 0 0xff 0) ()
  have hfull : dumped {} = String.join (Vcd.header "1ns" ++ Vcd.pieces none samples) :=
    (hsamples {}).2.trans (Vcd.written_unlimited "1ns" samples)
  obtain ⟨ps, hps⟩ : ∃ ps, Vcd.header "1ns" ++ Vcd.pieces none samples =
      "$date\n" :: "  Simulation date\n" :: ps := ⟨_, rfl⟩
  rw [hfull, hps, dumped_on_twenty_bytes] at hrest
  have hchars := congrArg String.toList hrest
  simp at hchars

end Rig

end BusBench

import BusBench.Proofs.Scenes
import BusBench.RegressCommand

namespace BusBench

/-- What the listing of an entry says, if it names one. -/
def TestEntry.Labelled (files : FileTree) (t : TestEntry) (labels : Labels) : Prop :=
  match t.disassembly with
  | none => labels = {}
  | some path => ∃ text, files.read path = .ok text ∧ Labels.ofListing text = .ok labels

/-- An entry brings one sentinel, which is what the other one is for all tests. -/
def RunSection.Crosses (run : RunSection) (t : TestEntry) : Prop :=
  ∃ addr, t.passAddr = some addr ∧ t.failAddr = none ∧ run.failAddr = some addr ∨
    t.failAddr = some addr ∧ t.passAddr = none ∧ run.passAddr = some addr

/-- The first of three sources that names an address: an entry, its listing, the common
settings. -/
inductive Supplies (own label common : Option Word) (addr : Word) : Prop
  | entry : own = some addr → Supplies own label common addr
  | listing : own = none → label = some addr → Supplies own label common addr
  | settings : own = none → label = none → common = some addr → Supplies own label common addr

/-- Each sentinel of an entry is its own, else that of its listing, else the common one. -/
def Config.Effective (c : Config) (files : FileTree) (t : TestEntry) (s : Sentinels) : Prop :=
  ∃ labels, t.Labelled files labels ∧
    Supplies t.passAddr labels.pass c.run.passAddr s.pass ∧
    Supplies t.failAddr labels.fail c.run.failAddr s.fail

variable {c : Config} {t : TestEntry} {labels : Labels} {files : FileTree}

section

variable {own label common : Option Word} {addr : Word}

theorem effective_eq_some_iff :
    effective own label common = some addr ↔ Supplies own label common addr := by
  constructor
  · intro h
    cases hown : own with
    | some a =>
      rw [hown] at h
      exact .entry h
    | none =>
      cases hlabel : label with
      | some a =>
        rw [hown, hlabel] at h
        exact .listing rfl h
      | none =>
        rw [hown, hlabel] at h
        exact .settings rfl rfl h
  · rintro (rfl | ⟨rfl, rfl⟩ | ⟨rfl, rfl, rfl⟩) <;> rfl

theorem effective_eq_none_iff :
    effective own label common = none ↔ own = none ∧ label = none ∧ common = none := by
  simp only [effective, Option.orElse_eq_orElse, Option.orElse_eq_or, Option.or_eq_none_iff]

end

theorem looks_readLabels (t : TestEntry) :
    Looks (readLabels t : CommandM (StateM Scene) Labels) := by
  unfold readLabels
  cases t.disassembly with
  | none => exact .pure _
  | some p => exact looks_text _ p fun _ => looks_attempt _ _

theorem readLabels_ok : answer (readLabels t) files = .ok labels ↔ t.Labelled files labels := by
  unfold readLabels TestEntry.Labelled
  cases t.disassembly with
  | none => exact ⟨fun h => by cases h; rfl, fun h => by rw [h]; rfl⟩
  | some p => simp only [answer_text_ok, answer_attempt_ok]

theorem looks_testConfig (c : Config) (index : Nat) (t : TestEntry) :
    Looks (testConfig c index t : CommandM (StateM Scene) Config) :=
  (looks_readLabels t).bind fun _ => (looks_attempt _ _).bind fun _ => .pure _

theorem testConfig_ok {index : Nat} {c' : Config} :
    answer (testConfig c index t) files = .ok c' ↔
      ∃ labels, t.Labelled files labels ∧ c' = c.forTest t labels ∧
        c'.checkTest index = .ok () := by
  simp only [testConfig, (looks_readLabels t).answer_bind_ok, readLabels_ok,
    (looks_attempt _ _).answer_bind_ok, answer_attempt_ok]
  constructor
  · rintro ⟨labels, hl, _, hcheck, h⟩
    cases h
    exact ⟨labels, hl, rfl, hcheck⟩
  · rintro ⟨labels, hl, rfl, hcheck⟩
    exact ⟨labels, hl, (), hcheck, rfl⟩

theorem testConfig_check {index : Nat} {c' : Config}
    (h : answer (testConfig c index t) files = .ok c') :
    c'.check = .ok () ∧ c'.run.passAddr.isSome ∧ c'.run.failAddr.isSome ∧
      c'.outputs = c.outputs := by
  obtain ⟨labels, _, hc, hcheck⟩ := testConfig_ok.mp h
  unfold Config.checkTest at hcheck
  split at hcheck
  next => cases hcheck
  next hpass =>
    split at hcheck
    next => cases hcheck
    next hfail =>
      refine ⟨hcheck, Option.isSome_iff_ne_none.mpr (by simpa using hpass),
        Option.isSome_iff_ne_none.mpr (by simpa using hfail), ?_⟩
      rw [hc]
      rfl

/-- An entry of a sound configuration makes a sound configuration. -/
theorem Config.Sound.forTest (h : c.Sound) (ht : t ∈ c.tests) (labels : Labels) :
    (c.forTest t labels).Sound where
  timeout := getD_ne_zero (h.tests t ht).timeout h.timeout
  halfPeriod := h.halfPeriod
  range := h.range
  lo := h.lo
  hi := h.hi
  offset := holds_getD (h.tests t ht).offset h.offset
  timescale := h.timescale
  script := holds_getD (P := fun ops : List BusOp => ∀ op ∈ ops, op.FourLanes)
    (h.tests t ht).script h.script
  tests := nofun

/-- All that can go wrong with a sound configuration without tests is that its sentinels meet. -/
theorem Config.Sound.check_eq {pass fail : Word} (hsound : c.Sound) (htests : c.tests = [])
    (hpass : c.run.passAddr = some pass) (hfail : c.run.failAddr = some fail) :
    c.check = if pass = fail then .error (.sentinelClash "" pass) else .ok () := by
  split
  next hsame =>
    simp [Config.check, Config.constraints, firstFailure, htests, hpass, hfail, Config.clash, hsame]
  next hne =>
    refine Config.check_eq_ok_iff.mpr ⟨fun _ => ?_, ?_, hsound, ?_⟩
    · simp [hpass, hfail]
    · rw [hpass, hfail]
      simpa [Differ] using hne
    · rw [htests]
      exact fun t ht => absurd ht List.not_mem_nil

theorem Config.checkTest_ok {index : Nat} {pass fail : Word} (hsound : c.Sound)
    (hpass : c.run.passAddr = some pass) (hfail : c.run.failAddr = some fail)
    (hne : pass ≠ fail) (htests : c.tests = []) : c.checkTest index = .ok () := by
  have hcheck : c.check = .ok () := by rw [hsound.check_eq htests hpass hfail, if_neg hne]
  simp [checkTest, hpass, hfail, hcheck]

/-- What an entry and the common settings say without its listing differs, unless they cross. -/
theorem differ_iff_not_crosses {s : Sentinels} (hrun : Differ c.run.passAddr c.run.failAddr)
    (hs : c.Effective files t s) (hne : s.pass ≠ s.fail) :
    Differ (t.passAddr <|> c.run.passAddr) (t.failAddr <|> c.run.failAddr) ↔
      ¬ c.run.Crosses t := by
  obtain ⟨labels, _, hpass, hfail⟩ := hs
  unfold RunSection.Crosses
  -- an entry with no sentinel of its own meets the common pair and one with two meets its own, both
  -- known to differ; only an entry with one meets a common address that its listing may replace
  cases hp : t.passAddr with
  | none =>
    cases hf : t.failAddr with
    | none => simpa using hrun
    | some f =>
      change Differ c.run.passAddr (some f) ↔ _
      cases c.run.passAddr with
      | none => simp [Differ]
      | some p => simp [Differ, eq_comm]
  | some p =>
    cases hf : t.failAddr with
    | none =>
      change Differ (some p) c.run.failAddr ↔ _
      cases c.run.failAddr with
      | none => simp [Differ]
      | some f => simp [Differ, eq_comm]
    | some f =>
      rw [hp, ← effective_eq_some_iff] at hpass
      rw [hf, ← effective_eq_some_iff] at hfail
      cases hpass
      cases hfail
      simpa [Differ] using hne

/-- A file whose entries all have two different sentinels by the order entry, listing, common
settings is loaded exactly if no entry crosses the common sentinels, whatever its listing says
instead of them; in either case each entry runs with the sentinels that this order gives. -/
theorem sentinels_by_precedence {text : String} {d : Document} {s : Scene}
    (hparse : Toml.parse text = some d) (hread : Config.reader .toml d = .ok c) (hsound : c.Sound)
    (hrun : Differ c.run.passAddr c.run.failAddr)
    (hentries : ∀ t ∈ c.tests, ∃ known, c.Effective s.files t known ∧ known.pass ≠ known.fail) :
    (Config.ofToml text = .ok c ↔
      (c.tests = [] → c.run.passAddr.isSome ∧ c.run.failAddr.isSome) ∧
        ∀ t ∈ c.tests, ¬ c.run.Crosses t) ∧
    ∀ index t, c.tests[index]? = some t → ∃ known c', c.Effective s.files t known ∧
      (testConfig c index t : CommandM (StateM Scene) Config).run.run s = (.ok c', s) ∧
      c'.run.passAddr = some known.pass ∧ c'.run.failAddr = some known.fail := by
  constructor
  · have hcross : ∀ t ∈ c.tests,
        (Differ (t.passAddr <|> c.run.passAddr) (t.failAddr <|> c.run.failAddr) ↔
          ¬ c.run.Crosses t) := by
      intro t ht
      obtain ⟨known, hknown, hne⟩ := hentries t ht
      exact differ_iff_not_crosses hrun hknown hne
    have haccept : Config.ofToml text = .ok c ↔ c.check = .ok () := by
      rw [Config.ofToml_eq_ok_iff]
      constructor
      · rintro ⟨_, _, _, hcheck⟩
        exact hcheck
      · intro hcheck
        exact ⟨d, hparse, hread, hcheck⟩
    rw [haccept, Config.check_eq_ok_iff]
    constructor
    · rintro ⟨hknown, _, _, hdiffer⟩
      exact ⟨hknown, fun t ht => (hcross t ht).mp (hdiffer t ht)⟩
    · rintro ⟨hknown, hnot⟩
      exact ⟨hknown, hrun, hsound, fun t ht => (hcross t ht).mpr (hnot t ht)⟩
  · intro index t ht
    have hmem : t ∈ c.tests := List.mem_of_getElem? ht
    obtain ⟨known, hknown, hne⟩ := hentries t hmem
    have ⟨labels, hlabels, hpass, hfail⟩ := hknown
    rw [← effective_eq_some_iff] at hpass hfail
    -- here the listing counts, so that the entry is checked with what it runs with
    have hcheck : (c.forTest t labels).checkTest index = .ok () :=
      Config.checkTest_ok (hsound.forTest hmem labels) hpass hfail hne rfl
    refine ⟨known, c.forTest t labels, hknown, ?_, hpass, hfail⟩
    rw [looks_testConfig c index t s, testConfig_ok.mpr ⟨labels, hlabels, rfl, hcheck⟩]

/-- A test with a pass sentinel of its own that takes the fail sentinel of its listing. -/
def listedText (own : String) : String :=
  "[run]\npass_addr = 0x10\nfail_addr = 0x100\n" ++
    "[[test]]\nimage = \"a.hex\"\ndisassembly = \"a.dis\"\npass_addr = " ++ own

def listedConfig (own : Word) : Config where
  run := { passAddr := some 0x10, failAddr := some 0x100 }
  tests := [{ image := "a.hex", disassembly := some "a.dis", passAddr := some own }]

def listing : Scene where
  files := { root := .folder [("a.dis", .file (.text "104 <fail>:\n"))] }

theorem listed_sound (own : Word) : (listedConfig own).Sound where
  timeout := nofun
  halfPeriod := nofun
  range := (by decide : (0 : Word) ≤ 0xffffffff)
  lo := (by decide : Word.aligned 0 = true)
  hi := (by decide : (0xffffffff : Word) &&& 3 = 3)
  offset := (by decide : Word.aligned 0 = true)
  timescale := nofun
  script := nofun
  tests := by
    intro t ht
    obtain rfl := List.mem_singleton.mp ht
    exact ⟨nofun, nofun, nofun⟩

theorem listed_differ (own : Word) :
    Differ (listedConfig own).run.passAddr (listedConfig own).run.failAddr := by
  intro p hp f hf
  cases hp
  cases hf
  decide

theorem listed_labelled (own : Word) : ∀ t ∈ (listedConfig own).tests,
    t.Labelled listing.files ⟨none, some 0x104⟩ := by
  intro t ht
  obtain rfl := List.mem_singleton.mp ht
  exact ⟨"104 <fail>:\n", by decide +kernel, by decide +kernel⟩

theorem listed_entries {own : Word} (h : own ≠ 0x104) : ∀ t ∈ (listedConfig own).tests, ∃ known,
    (listedConfig own).Effective listing.files t known ∧ known.pass ≠ known.fail := by
  intro t ht
  have hlabels := listed_labelled own t ht
  obtain rfl := List.mem_singleton.mp ht
  exact ⟨⟨own, 0x104⟩, ⟨_, hlabels, .entry rfl, .listing rfl rfl⟩, h⟩

theorem read_of_toOption {text : String}
    (h : (Toml.parse text).bind (fun d => (Config.reader .toml d).toOption) = some c) :
    ∃ d, Toml.parse text = some d ∧ Config.reader .toml d = .ok c := by
  obtain ⟨d, hparse, hread⟩ := Option.bind_eq_some_iff.mp h
  exact ⟨d, hparse, eq_ok_of_toOption hread⟩

theorem sentinels_by_precedence_of_listing :
    ∃ d, Toml.parse (listedText "0x200") = some d ∧
      Config.reader .toml d = .ok (listedConfig 0x200) ∧ (listedConfig 0x200).Sound ∧
      Differ (listedConfig 0x200).run.passAddr (listedConfig 0x200).run.failAddr ∧
      (∀ t ∈ (listedConfig 0x200).tests, ∃ known,
        (listedConfig 0x200).Effective listing.files t known ∧ known.pass ≠ known.fail) ∧
      Config.ofToml (listedText "0x200") = .ok (listedConfig 0x200) ∧
      ∀ t ∈ (listedConfig 0x200).tests, ∃ c',
        (testConfig (listedConfig 0x200) 0 t : CommandM (StateM Scene) Config).run.run listing =
          (.ok c', listing) ∧
        c'.run.passAddr = some 0x200 ∧ c'.run.failAddr = some 0x104 := by
  have hd : (Toml.parse (listedText "0x200")).bind (fun d => (Config.reader .toml d).toOption) =
    some (listedConfig 0x200) := by decide +kernel
  obtain ⟨d, hparse, hread⟩ := read_of_toOption hd
  have hentries := listed_entries (show (0x200 : Word) ≠ 0x104 by decide)
  obtain ⟨hload, hruns⟩ :=
    sentinels_by_precedence hparse hread (listed_sound 0x200) (listed_differ _) hentries
  refine ⟨d, hparse, hread, listed_sound 0x200, listed_differ _, hentries,
    hload.mpr ⟨nofun, ?_⟩, ?_⟩
  · intro t ht
    obtain rfl := List.mem_singleton.mp ht
    rintro ⟨addr, ⟨hown, _, hcommon⟩ | ⟨hown, _⟩⟩
    · cases hown
      cases hcommon
    · cases hown
  · intro t ht
    have hlisted := readLabels_ok.mpr (listed_labelled 0x200 t ht)
    obtain rfl := List.mem_singleton.mp ht
    obtain ⟨known, c', ⟨labels, hlabels, hpass, hfail⟩, hrun, hp, hf⟩ := hruns 0 _ rfl
    rw [← effective_eq_some_iff] at hpass hfail
    cases hlisted.symm.trans (readLabels_ok.mpr hlabels)
    exact ⟨c', hrun, hp.trans hpass.symm, hf.trans hfail.symm⟩

/-- The listing keeps the sentinels apart, but the file is refused for the common address that
the listing replaces. -/
theorem listing_left_out_on_load :
    ∃ d, Toml.parse (listedText "0x100") = some d ∧
      Config.reader .toml d = .ok (listedConfig 0x100) ∧ (listedConfig 0x100).Sound ∧
      Differ (listedConfig 0x100).run.passAddr (listedConfig 0x100).run.failAddr ∧
      (∀ t ∈ (listedConfig 0x100).tests, ∃ known,
        (listedConfig 0x100).Effective listing.files t known ∧ known.pass ≠ known.fail) ∧
      Config.ofToml (listedText "0x100") = .error (.sentinelClash "test[0]: " 0x100) := by
  have hd : (Toml.parse (listedText "0x100")).bind (fun d => (Config.reader .toml d).toOption) =
    some (listedConfig 0x100) := by decide +kernel
  obtain ⟨d, hparse, hread⟩ := read_of_toOption hd
  refine ⟨d, hparse, hread, listed_sound 0x100, listed_differ _, listed_entries (by decide), ?_⟩
  simp only [Config.ofToml, hparse, Config.ofDocument, hread]
  rfl

end BusBench

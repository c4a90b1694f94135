import BusBench.Proofs.SentinelPrecedence

namespace BusBench

/-- The configuration of an entry whose sentinels are known. -/
def Config.merged (c : Config) (t : TestEntry) (known : Sentinels) : Config :=
  { c with
    run.passAddr := some known.pass
    run.failAddr := some known.fail
    run.timeout := t.timeout.getD c.run.timeout
    memory.image := some t.image
    memory.offset := t.offset.getD c.memory.offset
    script := t.script.getD c.script
    tests := [] }

/-- Why an entry makes no configuration: its listing, then a sentinel that nothing names, then two
sentinels that meet. -/
inductive TestEntry.Refused (c : Config) (files : FileTree) (index : Nat) (t : TestEntry) :
    CommandError → Prop
  | unread {path : Path} {fault : Fault} : t.disassembly = some path →
      files.read path = .error fault → Refused c files index t (.listingFile path fault)
  | mislabelled {path : Path} {text : String} {e : LabelError} : t.disassembly = some path →
      files.read path = .ok text → Labels.ofListing text = .error e →
      Refused c files index t (.label path e)
  | noPass {labels : Labels} : t.Labelled files labels →
      t.passAddr = none → labels.pass = none → c.run.passAddr = none →
      Refused c files index t (.config (.missingSentinel s!"test[{index}].pass_addr"))
  | noFail {labels : Labels} {pass : Word} : t.Labelled files labels →
      Supplies t.passAddr labels.pass c.run.passAddr pass →
      t.failAddr = none → labels.fail = none → c.run.failAddr = none →
      Refused c files index t (.config (.missingSentinel s!"test[{index}].fail_addr"))
  | clash {addr : Word} : c.Effective files t ⟨addr, addr⟩ →
      Refused c files index t (.config (.sentinelClash "" addr))

section

variable {c : Config} {t : TestEntry} {labels : Labels} {files : FileTree} {index : Nat}

theorem Config.forTest_eq_merged {known : Sentinels}
    (hpass : Supplies t.passAddr labels.pass c.run.passAddr known.pass)
    (hfail : Supplies t.failAddr labels.fail c.run.failAddr known.fail) :
    c.forTest t labels = c.merged t known := by
  rw [← effective_eq_some_iff] at hpass hfail
  simp only [forTest, hpass, hfail, merged]

/-- Once the listing is read, an entry is checked with what it runs with. -/
theorem testConfig_answer (h : t.Labelled files labels) :
    answer (testConfig c index t) files =
      ((c.forTest t labels).checkTest index).mapError .config >>= fun _ =>
        .ok (c.forTest t labels) := by
  rw [testConfig, (looks_readLabels t).answer_bind, readLabels_ok.mpr h]
  show answer (attempt .config ((c.forTest t labels).checkTest index) >>= fun _ => _) files = _
  rw [(looks_attempt _ _).answer_bind, answer_attempt]
  rfl

theorem readLabels_answer {path : Path} (h : t.disassembly = some path) :
    answer (readLabels t) files = (files.read path).mapError (.listingFile path) >>= fun text =>
      (Labels.ofListing text).mapError (.label path) := by
  unfold readLabels
  simp only [h, (looks_read path).answer_bind, (looks_attempt _ _).answer_bind, answer_attempt]
  rfl

/-- An entry whose listing cannot be used is refused with what is wrong with the listing. -/
theorem testConfig_of_labels_error {e : CommandError} (h : answer (readLabels t) files = .error e) :
    answer (testConfig c index t) files = .error e := by
  rw [testConfig, (looks_readLabels t).answer_bind, h]
  rfl

/-- What an entry with known sentinels and a usable listing comes to. -/
theorem testConfig_of_effective {known : Sentinels} (hsound : c.Sound) (ht : t ∈ c.tests)
    (h : c.Effective files t known) :
    answer (testConfig c index t) files =
      if known.pass = known.fail then .error (.config (.sentinelClash "" known.pass))
      else .ok (c.merged t known) := by
  obtain ⟨labels, hlabels, hpass, hfail⟩ := h
  have hmerged := Config.forTest_eq_merged hpass hfail
  have hsound' : (c.merged t known).Sound := hmerged ▸ hsound.forTest ht labels
  have hcheck : (c.merged t known).checkTest index = (c.merged t known).check := rfl
  rw [testConfig_answer hlabels, hmerged, hcheck, hsound'.check_eq rfl rfl rfl]
  split <;> rfl

theorem TestEntry.Refused.answer_eq {e : CommandError} (hsound : c.Sound) (ht : t ∈ c.tests)
    (h : t.Refused c files index e) : answer (testConfig c index t) files = .error e := by
  cases h with
  | unread hpath hread =>
    refine testConfig_of_labels_error ?_
    rw [readLabels_answer hpath, hread]
    rfl
  | mislabelled hpath hread hlabels =>
    refine testConfig_of_labels_error ?_
    rw [readLabels_answer hpath, hread]
    show (Labels.ofListing _).mapError _ = _
    rw [hlabels]
    rfl
  | @noPass labels hlabels hown hlabel hcommon =>
    have hpass := effective_eq_none_iff.mpr ⟨hown, hlabel, hcommon⟩
    have hcheck : (c.forTest t labels).checkTest index =
        .error (.missingSentinel s!"test[{index}].pass_addr") := by
      simp only [Config.checkTest, Config.forTest, hpass, Option.isNone_none, if_true, itemKey_eq]
      rfl
    rw [testConfig_answer hlabels, hcheck]
    rfl
  | @noFail labels pass hlabels hpass hown hlabel hcommon =>
    rw [← effective_eq_some_iff] at hpass
    have hfail := effective_eq_none_iff.mpr ⟨hown, hlabel, hcommon⟩
    have hcheck : (c.forTest t labels).checkTest index =
        .error (.missingSentinel s!"test[{index}].fail_addr") := by
      simp only [Config.checkTest, Config.forTest, hpass, hfail, Option.isNone_some,
        Option.isNone_none, if_true, itemKey_eq]
      rfl
    rw [testConfig_answer hlabels, hcheck]
    rfl
  | clash heffective =>
    rw [testConfig_of_effective hsound ht heffective]
    exact if_pos rfl

/-- There is nothing between a configuration and a reason against it. -/
theorem TestEntry.effective_or_refused (c : Config) (files : FileTree) (index : Nat)
    (t : TestEntry) :
    (∃ known, c.Effective files t known ∧ known.pass ≠ known.fail) ∨
      ∃ e, t.Refused c files index e := by
  have hlisted : (∃ labels, t.Labelled files labels) ∨ ∃ e, t.Refused c files index e := by
    unfold TestEntry.Labelled
    cases hpath : t.disassembly with
    | none => exact .inl ⟨{}, rfl⟩
    | some path =>
      cases hread : files.read path with
      | error fault => exact .inr ⟨_, .unread hpath hread⟩
      | ok text =>
        cases hlabels : Labels.ofListing text with
        | error e => exact .inr ⟨_, .mislabelled hpath hread hlabels⟩
        | ok labels => exact .inl ⟨labels, text, hread, hlabels⟩
  rcases hlisted with ⟨labels, hlabels⟩ | hrefused
  · cases hpass : effective t.passAddr labels.pass c.run.passAddr with
    | none =>
      obtain ⟨hown, hlabel, hcommon⟩ := effective_eq_none_iff.mp hpass
      exact .inr ⟨_, .noPass hlabels hown hlabel hcommon⟩
    | some pass =>
      rw [effective_eq_some_iff] at hpass
      cases hfail : effective t.failAddr labels.fail c.run.failAddr with
      | none =>
        obtain ⟨hown, hlabel, hcommon⟩ := effective_eq_none_iff.mp hfail
        exact .inr ⟨_, .noFail hlabels hpass hown hlabel hcommon⟩
      | some fail =>
        rw [effective_eq_some_iff] at hfail
        have heffective : c.Effective files t ⟨pass, fail⟩ := ⟨labels, hlabels, hpass, hfail⟩
        by_cases hsame : pass = fail
        · subst hsame
          exact .inr ⟨_, .clash heffective⟩
        · exact .inl ⟨_, heffective, hsame⟩
  · exact .inr hrefused

/-- Without a listing an entry runs with sentinels that the base was checked for. -/
theorem Config.Effective.ne_of_check {known : Sentinels} (h : c.check = .ok ()) (ht : t ∈ c.tests)
    (hnone : t.disassembly = none) (heffective : c.Effective files t known) :
    known.pass ≠ known.fail := by
  obtain ⟨_, _, _, hdiffer⟩ := Config.check_eq_ok_iff.mp h
  obtain ⟨labels, hlabels, hpass, hfail⟩ := heffective
  rw [← effective_eq_some_iff] at hpass hfail
  obtain rfl : labels = {} := by simpa [TestEntry.Labelled, hnone] using hlabels
  exact hdiffer t ht known.pass hpass known.fail hfail

theorem Config.Effective.merged_check {known : Sentinels} (hsound : c.Sound) (ht : t ∈ c.tests)
    (h : c.Effective files t known) (hne : known.pass ≠ known.fail) :
    (c.merged t known).check = .ok () := by
  obtain ⟨labels, _, hpass, hfail⟩ := h
  have hmerged : (c.merged t known).Sound :=
    Config.forTest_eq_merged hpass hfail ▸ hsound.forTest ht labels
  rw [hmerged.check_eq rfl rfl rfl, if_neg hne]

end

/-- An entry of an accepted configuration makes an accepted one exactly if its listing can be used
and its sentinels are known and different; all else that can go wrong is listed. -/
theorem Config.entry_accepted_with_base {c : Config} {index : Nat} {t : TestEntry} {s : Scene}
    (h : c.check = .ok ()) (ht : c.tests[index]? = some t) :
    ∃ result,
      (testConfig c index t : CommandM (StateM Scene) Config).run.run s = (result, s) ∧
      (∀ c', result = .ok c' ↔ ∃ known, c.Effective s.files t known ∧ known.pass ≠ known.fail ∧
        c' = c.merged t known) ∧
      (∀ c', result = .ok c' → c'.check = .ok ()) ∧
      (∀ e, result = .error e ↔ t.Refused c s.files index e) ∧
      (∀ key flaw, result ≠ .error (.config (.invalid key flaw))) ∧
      (t.disassembly = none →
        ∀ context addr, result ≠ .error (.config (.sentinelClash context addr))) := by
  obtain ⟨_, _, hsound, _⟩ := Config.check_eq_ok_iff.mp h
  have hmem : t ∈ c.tests := List.mem_of_getElem? ht
  have hgood {known} (hknown : c.Effective s.files t known) (hne : known.pass ≠ known.fail) :
      answer (testConfig c index t) s.files = .ok (c.merged t known) := by
    rw [testConfig_of_effective hsound hmem hknown, if_neg hne]
  have hbad {e} (he : t.Refused c s.files index e) :
      answer (testConfig c index t) s.files = .error e := he.answer_eq hsound hmem
  have hok (c') : answer (testConfig c index t) s.files = .ok c' ↔
      ∃ known, c.Effective s.files t known ∧ known.pass ≠ known.fail ∧ c' = c.merged t known := by
    constructor
    · intro hc
      rcases t.effective_or_refused c s.files index with ⟨known, hknown, hne⟩ | ⟨e, he⟩
      · cases hc.symm.trans (hgood hknown hne)
        exact ⟨known, hknown, hne, rfl⟩
      · cases hc.symm.trans (hbad he)
    · rintro ⟨known, hknown, hne, rfl⟩
      exact hgood hknown hne
  have herror (e) : answer (testConfig c index t) s.files = .error e ↔
      t.Refused c s.files index e := by
    refine ⟨fun hc => ?_, hbad⟩
    rcases t.effective_or_refused c s.files index with ⟨known, hknown, hne⟩ | ⟨e', he⟩
    · cases hc.symm.trans (hgood hknown hne)
    · cases hc.symm.trans (hbad he)
      exact he
  refine ⟨_, looks_testConfig c index t s, hok, fun c' hc => ?_, herror, fun key flaw hc => ?_,
    fun hnone context addr hc => ?_⟩
  · obtain ⟨known, hknown, hne, rfl⟩ := (hok c').mp hc
    exact hknown.merged_check hsound hmem hne
  · cases (herror _).mp hc
  · cases (herror _).mp hc with
    | clash heffective => exact heffective.ne_of_check h hmem hnone rfl

/-- The entry of `listedConfig`. -/
def listedEntry (own : Word) : TestEntry where
  image := "a.hex"
  disassembly := some "a.dis"
  passAddr := some own

theorem listed_check {own : Word} (h : own ≠ 0x100) : (listedConfig own).check = .ok () := by
  refine Config.check_eq_ok_iff.mpr ⟨nofun, listed_differ own, listed_sound own, fun t ht => ?_⟩
  obtain rfl := List.mem_singleton.mp ht
  intro p hp f hf
  cases hp
  cases hf
  exact h

theorem listed_effective (own : Word) :
    (listedConfig own).Effective listing.files (listedEntry own) ⟨own, 0x104⟩ :=
  ⟨_, listed_labelled own _ (List.mem_singleton_self _), .entry rfl, .listing rfl rfl⟩

/-- Both bases are accepted, but the listing brings the fail sentinel that the second entry has as
its pass sentinel. -/
theorem entry_accepted_with_base_of_listing :
    (listedConfig 0x200).check = .ok () ∧
      (testConfig (listedConfig 0x200) 0 (listedEntry 0x200) :
          CommandM (StateM Scene) Config).run.run listing =
        (.ok ((listedConfig 0x200).merged (listedEntry 0x200) ⟨0x200, 0x104⟩), listing) ∧
      (listedConfig 0x104).check = .ok () ∧
      (testConfig (listedConfig 0x104) 0 (listedEntry 0x104) :
          CommandM (StateM Scene) Config).run.run listing =
        (.error (.config (.sentinelClash "" 0x104)), listing) := by
  have happlied {own : Word} (hown : own ≠ 0x100) :=
    @Config.entry_accepted_with_base _ 0 (listedEntry own) listing (listed_check hown) rfl
  obtain ⟨apart, hapart, hok, _⟩ := happlied (show (0x200 : Word) ≠ 0x100 by decide)
  obtain ⟨met, hmet, _, _, herror, _⟩ := happlied (show (0x104 : Word) ≠ 0x100 by decide)
  have heffective := listed_effective 0x200
  refine ⟨listed_check (by decide), ?_, listed_check (by decide), ?_⟩
  · rw [hapart, (hok _).mpr ⟨_, heffective, by decide, rfl⟩]
  · rw [hmet, (herror _).mpr (.clash (listed_effective 0x104))]

end BusBench

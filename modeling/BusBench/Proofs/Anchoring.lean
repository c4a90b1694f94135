import BusBench.ConfigCheck

namespace BusBench

namespace Path

/-- A path that another one can be put behind as it is. -/
def isOpen (base : Path) : Bool := base.isEmpty || base.toList.getLast? == some '/'

/-- A base with the slash that a path behind it needs. -/
def lead (base : Path) : Path := if base.isOpen then base else base ++ "/"

section

variable {base p : Path}

theorem join_of_absolute (h : p.isAbsolute = true) : base.join p = p := if_pos h

theorem join_of_relative (h : p.isAbsolute = false) : base.join p = base.lead ++ p := by
  unfold join lead isOpen
  rw [h, if_neg Bool.false_ne_true]
  split <;> rfl

theorem isOpen_lead (base : Path) : base.lead.isOpen = true := by
  unfold lead
  split
  next h => exact h
  next => simp [isOpen]

theorem isOpen_append (h : p ≠ "") : isOpen (base ++ p) = p.isOpen := by
  have hp : p.isEmpty = false := by simpa using h
  have hjoined : (base ++ p).isEmpty = false := by simp [h]
  have hlast : p.toList.getLast?.isSome = true := by simpa using h
  obtain ⟨c, hc⟩ := Option.isSome_iff_exists.mp hlast
  simp [isOpen, hp, hjoined, hc]

theorem lead_append (base p : Path) : lead (base.lead ++ p) = base.lead ++ p.lead := by
  by_cases hp : p = ""
  · subst hp
    have hempty : lead "" = "" := rfl
    rw [String.append_empty, hempty, String.append_empty, lead, if_pos (isOpen_lead base)]
  · have hend : isOpen (base.lead ++ p) = p.isOpen := isOpen_append hp
    rw [lead, hend, lead.eq_def p]
    split
    next => rfl
    next => rw [String.append_assoc]

theorem isAbsolute_lead_append (h : p.isAbsolute = false) :
    isAbsolute (base.lead ++ p) = base.isAbsolute := by
  by_cases hb : base = ""
  · subst hb
    have hempty : lead "" = "" := rfl
    rw [hempty, String.empty_append, h]
    rfl
  · obtain ⟨c, cs, hc⟩ := List.exists_cons_of_ne_nil (l := base.toList) (by simpa using hb)
    unfold lead
    split <;> simp [isAbsolute, hc]

theorem isAbsolute_join (base p : Path) :
    (base.join p).isAbsolute = (p.isAbsolute || base.isAbsolute) := by
  cases h : p.isAbsolute with
  | true => rw [join_of_absolute h, h, Bool.true_or]
  | false => rw [join_of_relative h, isAbsolute_lead_append h, Bool.false_or]

/-- To go from one base to another and on to a path is to go there from the joined base. -/
theorem join_join (outer inner p : Path) :
    outer.join (inner.join p) = (outer.join inner).join p := by
  cases hp : p.isAbsolute with
  | true => simp only [join_of_absolute hp]
  | false =>
    have hinner : (inner.join p).isAbsolute = inner.isAbsolute := by
      rw [isAbsolute_join, hp, Bool.false_or]
    cases hi : inner.isAbsolute with
    | true => rw [join_of_absolute (hinner.trans hi), join_of_absolute hi]
    | false =>
      rw [join_of_relative (hinner.trans hi), join_of_relative hi, join_of_relative hp,
        join_of_relative hp, lead_append, String.append_assoc]

end

end Path

theorem eq_of_toList_eq {α : Type} {x y : Option α} (h : x.toList = y.toList) : x = y := by
  cases x <;> cases y <;> simp_all

namespace TestEntry

/-- The paths that an entry names. -/
def paths (t : TestEntry) : List Path := t.image :: t.disassembly.toList

/-- An entry with empty paths in place of those it names; a path that is not set stays so. -/
def bare (t : TestEntry) : TestEntry :=
  { t with image := "", disassembly := t.disassembly.map fun _ => "" }

theorem paths_length_of_bare {t u : TestEntry} (h : t.bare = u.bare) :
    t.paths.length = u.paths.length := by
  have hset := congrArg (fun t => t.disassembly.toList.length) h
  simpa [bare, paths, Option.toList_map] using hset

theorem eq_of_bare {t u : TestEntry} (h : t.bare = u.bare) (hpaths : t.paths = u.paths) :
    t = u := by
  obtain ⟨himage, hlist⟩ := List.cons.inj hpaths
  have hdisassembly : t.disassembly = u.disassembly := eq_of_toList_eq hlist
  cases t
  cases u
  simp_all [bare]

/-- Entries are all they hold but for paths, and their paths. -/
theorem all_eq_of_bare {ts us : List TestEntry} (h : ts.map bare = us.map bare)
    (hpaths : ts.flatMap paths = us.flatMap paths) : ts = us := by
  induction ts generalizing us with
  | nil => exact (List.map_eq_nil_iff.mp h.symm).symm
  | cons t ts ih =>
    obtain ⟨u, us, rfl, hu, hus⟩ := List.map_eq_cons_iff.mp h.symm
    have hlength := paths_length_of_bare hu.symm
    obtain ⟨hone, hrest⟩ := List.append_inj hpaths hlength
    rw [eq_of_bare hu.symm hone, ih hus.symm hrest]

end TestEntry

namespace Config

/-- The paths that a configuration names. -/
def paths (c : Config) : List Path :=
  c.memory.image.toList ++ (c.trace.path :: (c.coverage.path.toList ++ c.tests.flatMap (·.paths)))

/-- A configuration with empty paths in place of those it names; a path that is not set stays so. -/
def bare (c : Config) : Config :=
  { c with
    memory.image := c.memory.image.map fun _ => ""
    trace.path := ""
    coverage.path := c.coverage.path.map fun _ => ""
    tests := c.tests.map (·.bare) }

/-- A configuration is all it holds but for paths, and its paths. -/
theorem eq_of_bare {c d : Config} (h : c.bare = d.bare) (hpaths : c.paths = d.paths) : c = d := by
  have himages : c.memory.image.toList.length = d.memory.image.toList.length := by
    simpa [bare, Option.toList_map] using congrArg (fun c => c.memory.image.toList.length) h
  obtain ⟨himage, hpaths⟩ := List.append_inj hpaths himages
  obtain ⟨htrace, hpaths⟩ := List.cons.inj hpaths
  have hcoverages : c.coverage.path.toList.length = d.coverage.path.toList.length := by
    simpa [bare, Option.toList_map] using congrArg (fun c => c.coverage.path.toList.length) h
  obtain ⟨hcoverage, hpaths⟩ := List.append_inj hpaths hcoverages
  have htests := TestEntry.all_eq_of_bare (congrArg (·.tests) h) hpaths
  have himage := eq_of_toList_eq himage
  have hcoverage := eq_of_toList_eq hcoverage
  obtain ⟨_, ⟨⟩, ⟨⟩, ⟨⟩, _, _⟩ := c
  obtain ⟨_, ⟨⟩, ⟨⟩, ⟨⟩, _, _⟩ := d
  simp_all [bare]

theorem anchor_bare (base : Path) (c : Config) : (c.anchor base).bare = c.bare := by
  simp [anchor, bare, TestEntry.bare, Function.comp_def]

theorem anchor_paths (base : Path) (c : Config) :
    (c.anchor base).paths = c.paths.map base.join := by
  simp [anchor, paths, TestEntry.paths, Option.toList_map, List.flatMap_map, List.map_flatMap]

/-- A configuration is anchored by joining each of its paths to the base, and nothing else. -/
theorem eq_anchor_iff {base : Path} {c d : Config} :
    d = c.anchor base ↔ d.bare = c.bare ∧ d.paths = c.paths.map base.join := by
  constructor
  · rintro rfl
    exact ⟨anchor_bare base c, anchor_paths base c⟩
  · rintro ⟨hbare, hpaths⟩
    exact eq_of_bare (hbare.trans (anchor_bare base c).symm)
      (hpaths.trans (anchor_paths base c).symm)

theorem anchor_anchor (inner outer : Path) (c : Config) :
    (c.anchor inner).anchor outer = c.anchor (outer.join inner) := by
  refine eq_anchor_iff.mpr ⟨?_, ?_⟩
  · rw [anchor_bare, anchor_bare]
  · rw [anchor_paths, anchor_paths, List.map_map]
    exact List.map_congr_left fun p _ => Path.join_join outer inner p

/-- Anchored at a base and then at another one, a configuration is as anchored once at the first
base behind the second. Only the paths that are set change, each to that path behind the base; an
absolute base leaves none of them relative, and to anchor again at it changes nothing. -/
theorem anchors_compose (inner outer : Path) (c : Config) :
    (c.anchor inner).anchor outer = c.anchor (outer.join inner) ∧
      (∀ d, d = c.anchor inner ↔ d.bare = c.bare ∧ d.paths = c.paths.map inner.join) ∧
      (inner.isAbsolute = true →
        (c.anchor inner).anchor inner = c.anchor inner ∧
          ∀ p ∈ (c.anchor inner).paths, p.isAbsolute = true) := by
  refine ⟨anchor_anchor inner outer c, fun d => eq_anchor_iff, fun habsolute => ⟨?_, ?_⟩⟩
  · rw [anchor_anchor, Path.join_of_absolute habsolute]
  · intro p hp
    rw [anchor_paths] at hp
    obtain ⟨q, -, rfl⟩ := List.mem_map.mp hp
    rw [Path.isAbsolute_join, habsolute, Bool.or_true]

/-- A configuration that names an empty path and an absolute one, and leaves two paths unset. -/
def scattered : Config where
  memory := { image := some "img.hex" }
  tests := [{ image := "a.hex" }, { image := "/b.hex", disassembly := some "" }]

theorem anchors_compose_of_scattered :
    Path.isAbsolute "/work/" = true ∧
      (scattered.anchor "sub").anchor "/work/" = scattered.anchor "/work/sub" ∧
      (scattered.anchor "/work/sub").paths =
        ["/work/sub/img.hex", "/work/sub/waves.vcd", "/work/sub/a.hex", "/b.hex", "/work/sub/"] ∧
      (scattered.anchor "/work/").anchor "/work/" = scattered.anchor "/work/" ∧
      ∀ p ∈ (scattered.anchor "/work/").paths, p.isAbsolute = true := by
  have habsolute : Path.isAbsolute "/work/" = true := by decide
  obtain ⟨hcompose, -, -⟩ := anchors_compose "sub" "/work/" scattered
  have hjoined : Path.join "/work/" "sub" = "/work/sub" := by decide
  rw [hjoined] at hcompose
  obtain ⟨-, -, honce⟩ := anchors_compose "/work/" "/work/" scattered
  exact ⟨habsolute, hcompose, by decide, honce habsolute⟩

end Config

end BusBench

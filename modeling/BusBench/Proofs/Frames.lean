import BusBench.Proofs.Places

namespace BusBench

namespace FileNode

variable {n new : FileNode} {names l : List String} {content : Content}

theorem lookup_putEntry (name key : String) (n : FileNode) (es : List (String × FileNode)) :
    (putEntry name n es).lookup key = if key = name then some n else es.lookup key := by
  induction es with
  | nil =>
    by_cases h : key = name
    · simp [putEntry, h]
    · simp [putEntry, h, List.lookup_cons, beq_false_of_ne h]
  | cons e es ih =>
    obtain ⟨m, n'⟩ := e
    unfold putEntry
    split
    next hm =>
      subst hm
      by_cases h : key = m
      · simp [h]
      · simp [List.lookup_cons, h, beq_false_of_ne h]
    next hm =>
      by_cases h : key = m
      · subst h
        simp [hm]
      · simp [List.lookup_cons, beq_false_of_ne h, ih]

/-- What is put somewhere leaves all files of other places. -/
theorem at?_putAt (hfile : n.at? l = some (.file content)) (hl : l ≠ names)
    (hnames : ∀ entries, n.at? names ≠ some (.folder entries)) :
    (putAt new names n).at? l = some (.file content) := by
  -- on the way to the new node, which the way to the file leaves at the latest at its end
  induction names generalizing n l with
  | nil =>
    cases n with
    | folder entries => exact absurd rfl (hnames entries)
    | file c =>
      cases l with
      | nil => exact absurd rfl hl
      | cons m ls => cases hfile
  | cons name names ih =>
    cases n with
    | file c => exact hfile
    | folder entries =>
      cases l with
      | nil => cases hfile
      | cons m ls =>
        simp only [at?] at hfile
        split at hfile
        next child hchild =>
          simp only [putAt, at?, lookup_putEntry]
          by_cases hm : m = name
          · subst hm
            rw [if_pos rfl, hchild, Option.getD_some]
            refine ih hfile (fun h => hl (by rw [h])) fun es hes => hnames es ?_
            simp only [at?, hchild]
            exact hes
          · rw [if_neg hm, hchild]
            exact hfile
        next => cases hfile

end FileNode

namespace FileTree

variable {t t' : FileTree} {p : Path} {names : List String}

/-- All files stay as they are, but for those at some places. -/
structure Keeps (places : List (List String)) (t t' : FileTree) : Prop where
  here : t'.here = t.here
  files : ∀ l content, l ∉ places → t.root.at? l = some (.file content) →
    t'.root.at? l = some (.file content)

theorem Keeps.refl (places : List (List String)) (t : FileTree) : Keeps places t t :=
  ⟨rfl, fun _ _ _ h => h⟩

theorem Keeps.trans {places : List (List String)} {t'' : FileTree} (h : Keeps places t t')
    (h' : Keeps places t' t'') : Keeps places t t'' :=
  ⟨h'.here.trans h.here,
    fun l content hl hfile => h'.files l content hl (h.files l content hl hfile)⟩

theorem Keeps.mono {places more : List (List String)} (h : Keeps places t t')
    (hsub : places ⊆ more) : Keeps more t t' :=
  ⟨h.here, fun l content hl hfile => h.files l content (fun hmem => hl (hsub hmem)) hfile⟩

theorem keeps_putAt (new : FileNode) (hnames : ∀ es, t.root.at? names ≠ some (.folder es)) :
    Keeps [names] t { t with root := FileNode.putAt new names t.root } :=
  ⟨rfl, fun _ _ hl hfile => FileNode.at?_putAt hfile (by simpa using hl) hnames⟩

/-- Where a path leads is told by its text. -/
theorem walk_follow {ss : List (List Char)} {found : List String}
    (h : t.walk names ss = .ok found) : found = Path.follow names ss := by
  induction ss generalizing names with
  | nil =>
    cases h
    rfl
  | cons s ss ih =>
    unfold walk at h
    split at h
    next => cases h
    next => cases h
    next entries _ =>
      simp only [Path.follow]
      split at h
      next hidle => rw [if_pos hidle, ih h]
      next hidle =>
        rw [if_neg hidle]
        split at h
        next hup => rw [if_pos hup, ih h]
        next hup =>
          rw [if_neg hup]
          dsimp only at h
          split at h
          next => cases h
          next =>
            split at h
            next => cases h
            next => exact ih h

theorem site_place {s : Site} (h : t.site p = .ok s) (hslash : s.slash = false)
    (hdot : s.name ≠ ['.']) (hdots : s.name ≠ ['.', '.']) :
    p.place t.here = s.folder ++ [String.ofList s.name] := by
  unfold site at h
  split at h
  next => cases h
  next =>
    dsimp only at h
    split at h
    next =>
      cases h
      exact absurd rfl hdot
    next name before hdrop =>
      split at h
      next => cases h
      next folder hwalk =>
        split at h
        next =>
          cases h
          -- without a slash at the end, the last part is the name and the rest leads to the folder
          have hnone : p.parts.reverse.takeWhile (·.isEmpty) = [] := by simpa using hslash
          have hparts : p.parts.reverse = name :: before := by
            rw [← List.takeWhile_append_dropWhile (p := (·.isEmpty)) (l := p.parts.reverse), hnone,
              hdrop, List.nil_append]
          have hbusy : Path.idle name = false := by
            have hname : name ≠ [] := by
              rintro rfl
              simp [hparts] at hnone
            simp [Path.idle, hname, hdot]
          rw [Path.place, ← List.reverse_reverse p.parts, hparts, List.reverse_cons,
            Path.follow_append]
          have hfolder := walk_follow hwalk
          rw [origin] at hfolder
          rw [← hfolder]
          simp only [Path.follow, hbusy, if_neg Bool.false_ne_true, if_neg hdots]
        next => cases h

/-- A file that is written is put where its path leads, and nothing else changes. -/
theorem write_ok {content : Content} (h : t.write p content = .ok t') :
    t' = { t with root := FileNode.putAt (.file content) (p.place t.here) t.root } ∧
      ∀ es, t.root.at? (p.place t.here) ≠ some (.folder es) := by
  unfold write at h
  split at h
  next => cases h
  next s hsite =>
    dsimp only at h
    split at h
    next => cases h
    next hplain =>
      split at h
      next => cases h
      next =>
        simp only [not_or, Bool.not_eq_true] at hplain
        rw [site_place hsite hplain.1 hplain.2.1 hplain.2.2]
        split at h
        next => cases h
        next hfree =>
          cases h
          exact ⟨rfl, fun es hes => hfree es hes⟩

theorem write_keeps {content : Content} (h : t.write p content = .ok t') :
    Keeps [p.place t.here] t t' := by
  obtain ⟨rfl, hfree⟩ := write_ok h
  exact keeps_putAt _ hfree

theorem makeFolder_keeps (h : t.makeFolder p = .ok t') : Keeps [] t t' := by
  unfold makeFolder at h
  split at h
  next => cases h
  next s hsite =>
    dsimp only at h
    split at h
    next => cases h
    next =>
      split at h
      next => cases h
      next =>
        split at h
        next => cases h
        next hfree =>
          cases h
          refine ⟨rfl, fun l content _ hfile => FileNode.at?_putAt hfile ?_ ?_⟩
          · rintro rfl
            rw [hfree] at hfile
            cases hfile
          · rw [hfree]
            exact fun _ => nofun

theorem makeFolders_keeps {fuel : Nat} (h : t.makeFolders fuel p = .ok t') : Keeps [] t t' := by
  fun_induction makeFolders fuel t p generalizing t' with
  | case1 =>
    cases h
    exact .refl _ _
  | case2 _ _ _ t₁ hmake =>
    cases h
    exact makeFolder_keeps hmake
  | case3 => cases h
  | case4 _ _ _ _ _ _ t₁ hparents t₂ hmake ih =>
    cases h
    exact (ih hparents).trans (makeFolder_keeps hmake)
  | case5 _ _ _ _ _ _ t₁ hparents _ _ _ ih =>
    cases h
    exact ih hparents
  | case6 => cases h
  | case7 => cases h
  | case8 =>
    cases h
    exact .refl _ _
  | case9 => cases h

end FileTree

end BusBench

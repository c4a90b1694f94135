import BusBench.FileTree
import BusBench.RegressCommand

namespace BusBench

namespace Path

/-- Follows the parts of a path by their text alone. -/
def follow (names : List String) : List (List Char) → List String
  | [] => names
  | s :: ss =>
    if idle s then follow names ss
    else if s = ['.', '.'] then follow names.dropLast ss
    else follow (names ++ [String.ofList s]) ss

/-- What a path names, whether it is there or not. -/
def place (here : List String) (p : Path) : List String :=
  follow (if p.isAbsolute then [] else here) p.parts

/-- A name that is a part of a path and stands for itself. -/
structure Plain (name : String) : Prop where
  slash : '/' ∉ name.toList
  busy : idle name.toList = false
  down : name.toList ≠ ['.', '.']

/-- The folder that the outputs of tests are put in. -/
def folder (p : Path) : Path :=
  match p.fileName?, p.parent? with
  | some _, some folder => folder
  | _, _ => p

/-- All that follows the first point of a file name, with the point. -/
def extensions (p : Path) : String :=
  String.ofList ((p.fileName?.getD "").toList.dropWhile (· != '.'))

section

variable {here names : List String} {xs ys : List Char} {s : List Char} {ss : List (List Char)}
  {p : Path}

theorem forTest_eq (p : Path) (name : String) :
    p.forTest name = p.folder.join (name ++ p.extensions) := by
  unfold forTest withFileName folder extensions
  cases p.fileName? <;> cases p.parent? <;> rfl

theorem follow_append (names : List String) (ss ts : List (List Char)) :
    follow names (ss ++ ts) = follow (follow names ss) ts := by
  induction ss generalizing names with
  | nil => rfl
  | cons s ss ih =>
    simp only [List.cons_append, follow]
    split
    next => exact ih _
    next => split <;> exact ih _

theorem split_ne_nil (xs : List Char) : split xs ≠ [] := by
  cases xs with
  | nil => simp [split]
  | cons x xs =>
    unfold split
    split
    next => simp
    next => split <;> simp

theorem split_append (xs ys : List Char) : split (xs ++ '/' :: ys) = split xs ++ split ys := by
  induction xs with
  | nil => simp [split]
  | cons x xs ih =>
    by_cases hx : x = '/'
    · simp [split, hx, ih]
    · obtain ⟨s, ss, hs⟩ := List.exists_cons_of_ne_nil (split_ne_nil xs)
      simp [split, hx, ih, hs]

theorem split_of_no_slash (h : '/' ∉ xs) : split xs = [xs] := by
  induction xs with
  | nil => rfl
  | cons x xs ih =>
    obtain ⟨hx, hxs⟩ := List.ne_and_not_mem_of_not_mem_cons h
    simp [split, hx.symm, ih hxs]

theorem slash_not_mem_of_mem_split (h : s ∈ split xs) : '/' ∉ s := by
  induction xs generalizing s with
  | nil =>
    obtain rfl := List.mem_singleton.mp h
    exact List.not_mem_nil
  | cons x xs ih =>
    by_cases hx : x = '/'
    · simp only [split, hx, ↓reduceIte, List.mem_cons] at h
      rcases h with rfl | h
      · exact List.not_mem_nil
      · exact ih h
    · obtain ⟨t, ts, ht⟩ := List.exists_cons_of_ne_nil (split_ne_nil xs)
      simp only [split, hx, ↓reduceIte, ht, List.mem_cons] at h
      rcases h with rfl | h
      · have hts := ih (s := t) (by simp [ht])
        simp [Ne.symm hx, hts]
      · exact ih (by simp [ht, h])

theorem split_unite (hne : ss ≠ []) (h : ∀ s ∈ ss, '/' ∉ s) : split (unite ss) = ss := by
  induction ss with
  | nil => exact absurd rfl hne
  | cons s ss ih =>
    cases ss with
    | nil => exact split_of_no_slash (h s List.mem_cons_self)
    | cons t ts =>
      rw [unite, split_append, split_of_no_slash (h s List.mem_cons_self),
        ih (List.cons_ne_nil t ts) fun r hr => h r (List.mem_cons_of_mem s hr)]
      · rfl
      · simp

/-- An absolute path is one that starts with an empty part. -/
theorem isAbsolute_iff (h : p.parts ≠ [[]]) : p.isAbsolute = true ↔ p.parts.head? = some [] := by
  unfold isAbsolute
  unfold parts at h ⊢
  cases hp : p.toList with
  | nil => simp [hp, split] at h
  | cons x xs =>
    obtain ⟨t, ts, ht⟩ := List.exists_cons_of_ne_nil (split_ne_nil xs)
    by_cases hx : x = '/'
    · simp [split, hx]
    · simp [split, hx, ht]

theorem follow_plain {name : String} (h : Plain name) (names : List String) :
    follow names [name.toList] = names ++ [name] := by
  simp [follow, h.busy, h.down]

/-- A plain name lies right in the folder that it is put behind. -/
theorem place_join {name : String} (h : Plain name) (d : Path) :
    place here (d.join name) = place here d ++ [name] := by
  have hrel : isAbsolute name = false := by
    unfold isAbsolute
    cases hn : name.toList with
    | nil => rfl
    | cons c cs =>
      have hc : c ≠ '/' := fun hc => h.slash (by simp [hn, hc])
      simp [hc]
  -- both ways to join leave a slash between what leads to the folder and the name
  have hslash {q : Path} {l : List Char} (hq : q.toList = l ++ '/' :: name.toList)
      (habs : q.isAbsolute = d.isAbsolute)
      (hd : follow (if d.isAbsolute then [] else here) (split l) = place here d) :
      place here q = place here d ++ [name] := by
    rw [place, parts, hq, split_append, split_of_no_slash h.slash, follow_append, habs, hd,
      follow_plain h]
  unfold join
  rw [hrel, if_neg Bool.false_ne_true]
  by_cases hempty : d = ""
  · subst hempty
    have hplace : place here name = follow here [name.toList] := by
      rw [place, hrel, parts, split_of_no_slash h.slash]
      rfl
    have hhere : place here "" = here := rfl
    rw [if_pos (by simp), String.empty_append, hplace, follow_plain h, hhere]
  · have hne : d.toList ≠ [] := by simpa using hempty
    have hhead (zs : List Char) : (d.toList ++ zs).head? = d.toList.head? := by
      obtain ⟨c, cs, hc⟩ := List.exists_cons_of_ne_nil hne
      simp [hc]
    by_cases hlast : d.toList.getLast? = some '/'
    · rw [if_pos (by simp [hlast])]
      obtain ⟨xs, hxs⟩ := List.getLast?_eq_some_iff.mp hlast
      refine hslash (l := xs) ?_ ?_ ?_
      · simp [hxs]
      · rw [isAbsolute, isAbsolute, String.toList_append, hhead]
      · rw [place, parts, hxs, split_append, follow_append]
        rfl
    · rw [if_neg (by simp [hempty, hlast])]
      refine hslash (l := d.toList) ?_ ?_ rfl
      · simp
      · rw [isAbsolute, isAbsolute, String.append_assoc, String.toList_append, hhead]

/-- Parts that name nothing may be left out at the end. -/
theorem follow_trimEnd (names : List String) (ss : List (List Char)) :
    follow names (trimEnd ss).reverse = follow names ss.reverse := by
  induction ss using trimEnd.induct with
  | case1 => rfl
  | case2 s => rfl
  | case3 s t ss hidle ih =>
    have hlast : (s :: t :: ss).reverse = (t :: ss).reverse ++ [s] := List.reverse_cons
    rw [trimEnd, if_pos hidle, ih, hlast, follow_append]
    simp only [follow, hidle, ↓reduceIte]
  | case4 s t ss hbusy => rw [trimEnd, if_neg hbusy]

theorem trimEnd_getLast? (ss : List (List Char)) : (trimEnd ss).getLast? = ss.getLast? := by
  induction ss using trimEnd.induct with
  | case1 => rfl
  | case2 s => rfl
  | case3 s t ss hidle ih => rw [trimEnd, if_pos hidle, ih, List.getLast?_cons_cons]
  | case4 s t ss hbusy => rw [trimEnd, if_neg hbusy]

theorem mem_of_mem_trimEnd (h : s ∈ trimEnd ss) : s ∈ ss := by
  induction ss using trimEnd.induct with
  | case1 => exact h
  | case2 t => exact h
  | case3 t u ss hidle ih =>
    rw [trimEnd, if_pos hidle] at h
    exact List.mem_cons_of_mem t (ih h)
  | case4 t u ss hbusy => rwa [trimEnd, if_neg hbusy] at h

/-- The folder of reversed parts is where they lead to. -/
theorem place_ofReversed (hss : ss ≠ []) (hslash : ∀ s ∈ ss, '/' ∉ s) :
    place here (ofReversed ss) =
      follow (if ss.getLast? = some [] then [] else here) ss.reverse := by
  have hlast := trimEnd_getLast? ss
  have hmem : ∀ s ∈ trimEnd ss, '/' ∉ s := fun s hs => hslash s (mem_of_mem_trimEnd hs)
  rw [← follow_trimEnd, ← hlast]
  unfold ofReversed
  split
  next h =>
    rw [h] at hlast
    exact absurd (List.getLast?_eq_none_iff.mp hlast.symm) hss
  next h => rw [h]; rfl
  next hne hroot =>
    have hsplit : parts (String.ofList (unite (trimEnd ss).reverse)) = (trimEnd ss).reverse := by
      rw [parts, String.toList_ofList]
      exact split_unite (by simpa using hne) fun s hs => hmem s (List.mem_reverse.mp hs)
    have hroot' : parts (String.ofList (unite (trimEnd ss).reverse)) ≠ [[]] := by
      rw [hsplit]
      simpa using hroot
    rw [place, hsplit]
    simp only [isAbsolute_iff hroot', hsplit, List.head?_reverse]

theorem uncons?_some (h : p.uncons? = some (s, ss)) :
    trimEnd p.parts.reverse = s :: ss ∧ s ≠ [] := by
  unfold uncons? at h
  split at h
  next => cases h
  next t ts ht =>
    split at h
    next => cases h
    next hne =>
      cases h
      exact ⟨ht, by simpa using hne⟩

/-- A path with a file name names that file right in its folder. -/
theorem place_folder {name : String} (h : p.fileName? = some name) :
    place here p = place here p.folder ++ [name] := by
  have hname := h
  unfold fileName? at h
  split at h
  next s ss huncons =>
    split at h
    next => cases h
    next hplain =>
      cases h
      obtain ⟨htrim, hne⟩ := uncons?_some huncons
      have hfolder : p.folder = ofReversed ss := by
        simp only [folder, hname, parent?, huncons, Option.map_some]
      have hhead : p.parts.head? = (s :: ss).getLast? := by
        rw [← htrim, trimEnd_getLast?, List.getLast?_reverse]
      have hparts : p.parts ≠ [[]] := by
        intro hparts
        rw [hparts] at htrim
        exact hne (List.cons.inj htrim).1.symm
      have hto : follow (if p.isAbsolute then [] else here) ss.reverse = place here p.folder := by
        rw [hfolder]
        cases ss with
        | nil =>
          -- a name alone: its folder is the empty path, which stays where it starts
          have hrel : p.isAbsolute ≠ true := by
            rw [Ne, isAbsolute_iff hparts, hhead]
            simpa using hne
          rw [if_neg hrel]
          rfl
        | cons t ts =>
          have hslash : ∀ r ∈ t :: ts, '/' ∉ r := fun r hr =>
            slash_not_mem_of_mem_split (List.mem_reverse.mp (mem_of_mem_trimEnd
              (htrim ▸ List.mem_cons_of_mem s hr)))
          rw [place_ofReversed (List.cons_ne_nil t ts) hslash]
          simp only [isAbsolute_iff hparts, hhead, List.getLast?_cons_cons]
      have hall : place here p = follow (if p.isAbsolute then [] else here) (s :: ss).reverse := by
        rw [← htrim, follow_trimEnd, List.reverse_reverse]
        rfl
      rw [hall, List.reverse_cons, follow_append, hto]
      have hbusy : idle s = false := by
        simp only [not_or] at hplain
        simp [idle, hne, hplain.1]
      simp only [follow, hbusy, if_neg Bool.false_ne_true, if_neg (not_or.mp hplain).2]
  next => cases h

end

end Path

end BusBench

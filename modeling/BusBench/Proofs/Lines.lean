import BusBench.Blank
import Mathlib.Data.List.TakeWhile

namespace BusBench

theorem dropWhile_of_head {p : Char → Bool} {cs : List Char} (h : ∀ c ∈ cs.head?, p c = false) :
    cs.dropWhile p = cs := by
  cases cs with
  | nil => rfl
  | cons c cs => exact List.dropWhile_cons_of_neg (by simp [h c rfl])

/-- What does not hold of all of a list fails for a first member. -/
theorem exists_first_not {α : Type} {P : α → Prop} {xs : List α} (h : ¬ ∀ x ∈ xs, P x) :
    ∃ before x after, xs = before ++ x :: after ∧ (∀ b ∈ before, P b) ∧ ¬ P x := by
  induction xs with
  | nil => exact absurd (fun x hx => absurd hx List.not_mem_nil) h
  | cons x xs ih =>
    by_cases hx : P x
    · obtain ⟨before, y, after, rfl, hbefore, hy⟩ :=
        ih fun hxs => h (List.forall_mem_cons.mpr ⟨hx, hxs⟩)
      exact ⟨x :: before, y, after, rfl, List.forall_mem_cons.mpr ⟨hx, hbefore⟩, hy⟩
    · exact ⟨[], x, xs, rfl, fun b hb => absurd hb List.not_mem_nil, hx⟩

theorem of_mem_head?_dropWhile {p : Char → Bool} {cs : List Char} {c : Char}
    (h : c ∈ (cs.dropWhile p).head?) : p c = false := by
  have hnot := List.head?_dropWhile_not p cs
  rwa [Option.mem_def.mp h] at hnot

/-- What a text starts with, perhaps after blanks, up to the next blank; there is nothing only if
there are nothing but blanks. -/
def Leads (token text : List Char) : Prop :=
  ∃ before after, text = before ++ (token ++ after) ∧ (∀ c ∈ before, isBlank c = true) ∧
    (∀ c ∈ token, isBlank c = false) ∧ (∀ c ∈ after.head?, isBlank c = true) ∧
    (token = [] → after = [])

theorem leads_firstToken (text : List Char) : Leads (firstToken text) text := by
  refine ⟨text.takeWhile isBlank, (text.dropWhile isBlank).dropWhile fun c => !isBlank c, ?_,
    fun c hc => List.mem_takeWhile_imp hc, fun c hc => ?_, fun c hc => ?_, fun hnil => ?_⟩
  · rw [firstToken, List.takeWhile_append_dropWhile, List.takeWhile_append_dropWhile]
  · simpa using List.mem_takeWhile_imp hc
  · simpa using of_mem_head?_dropWhile hc
  · unfold firstToken at hnil
    cases hrest : text.dropWhile isBlank with
    | nil => rfl
    | cons c cs =>
      have hc : isBlank c = false := of_mem_head?_dropWhile (by rw [hrest]; rfl)
      rw [hrest, List.takeWhile_cons_of_pos (by rw [hc]; rfl)] at hnil
      cases hnil

theorem Leads.eq_firstToken {token text : List Char} (h : Leads token text) :
    token = firstToken text := by
  obtain ⟨before, after, rfl, hbefore, htoken, hafter, hnone⟩ := h
  have hstart : ∀ c ∈ (token ++ after).head?, isBlank c = false := by
    cases token with
    | nil => simp [hnone rfl]
    | cons t ts => simpa using htoken t List.mem_cons_self
  have hend : after.takeWhile (fun c => !isBlank c) = [] := by
    cases after with
    | nil => rfl
    | cons c cs => exact List.takeWhile_cons_of_neg (by simp [hafter c rfl])
  rw [firstToken, List.dropWhile_append_of_pos hbefore, dropWhile_of_head hstart,
    List.takeWhile_append_of_pos (by simpa using htoken), hend, List.append_nil]

theorem occursIn_iff {sought text : List Char} :
    occursIn sought text = true ↔ sought <:+: text := by
  induction text with
  | nil => rw [occursIn, List.isEmpty_iff, List.infix_nil]
  | cons c cs ih =>
    rw [occursIn, Bool.or_eq_true, List.isPrefixOf_iff_prefix, ih, List.infix_cons_iff]

/-- What starts with a character that the first part lacks stands within the second part. -/
theorem infix_of_append {c : Char} {sought xs ys : List Char} (hc : c ∉ xs)
    (h : c :: sought <:+: xs ++ ys) : c :: sought <:+: ys := by
  induction xs with
  | nil => exact h
  | cons x xs ih =>
    rcases List.infix_cons_iff.mp h with hstart | hlater
    · exact absurd (List.cons_prefix_cons.mp hstart).1 fun heq => hc (heq ▸ List.mem_cons_self)
    · exact ih (fun hmem => hc (List.mem_cons_of_mem x hmem)) hlater

/-- Blanks around a text whose own ends are not blank are what is trimmed off. -/
theorem trim_between {before text after : List Char} (hbefore : ∀ c ∈ before, isBlank c = true)
    (hafter : ∀ c ∈ after, isBlank c = true) (hhead : ∀ c ∈ text.head?, isBlank c = false)
    (hlast : ∀ c ∈ text.getLast?, isBlank c = false) : trim (before ++ text ++ after) = text := by
  unfold trim
  rw [List.append_assoc, List.dropWhile_append_of_pos hbefore]
  cases text with
  | nil => simp [List.dropWhile_eq_nil_iff.mpr hafter]
  | cons c cs =>
    have hrev : ∀ d ∈ after.reverse, isBlank d = true :=
      fun d hd => hafter d (List.mem_reverse.mp hd)
    have hstart : ((c :: cs) ++ after).dropWhile isBlank = (c :: cs) ++ after :=
      dropWhile_of_head (by simpa using hhead)
    have hend : (c :: cs).reverse.dropWhile isBlank = (c :: cs).reverse :=
      dropWhile_of_head (by rwa [List.head?_reverse])
    rw [hstart, List.reverse_append, List.dropWhile_append_of_pos hrev, hend, List.reverse_reverse]

theorem trim_concat (cs : List Char) {c : Char} (hc : isBlank c = true) :
    trim (cs ++ [c]) = trim cs := by
  unfold trim
  rw [List.dropWhile_append]
  split
  next hnil => simp [hc, List.isEmpty_iff.mp hnil]
  next => simp [hc]

theorem trim_eq_nil_iff {cs : List Char} : trim cs = [] ↔ ∀ c ∈ cs, isBlank c = true := by
  induction cs with
  | nil => simp [trim]
  | cons c cs ih =>
    cases hc : isBlank c with
    | true =>
      have htrim : trim (c :: cs) = trim cs := by simp [trim, hc]
      simp [htrim, ih, hc]
    | false =>
      have htrim : trim (c :: cs) = ((c :: cs).reverse.dropWhile isBlank).reverse := by
        simp [trim, hc]
      rw [htrim, List.reverse_eq_nil_iff, List.dropWhile_eq_nil_iff]
      simp only [List.mem_reverse]

theorem lines_cons {c : Char} {cs : List Char} (hfeed : c ≠ '\n')
    (hreturn : ¬ (c = '\r' ∧ cs.head? = some '\n')) :
    lines (c :: cs) =
      match lines cs with
      | [] => [[c]]
      | l :: ls => (c :: l) :: ls := by
  apply lines.eq_4
  · exact hfeed
  · intro rest hc hcs
    exact hreturn ⟨hc, by rw [hcs]; rfl⟩

/-- A line ends at its line feed, and a carriage return before that belongs to its end. -/
theorem lines_ended {l : List Char} (h : '\n' ∉ l) (rest : List Char) :
    ∃ l', lines (l ++ '\n' :: rest) = l' :: lines rest ∧ (l = l' ∨ l = l' ++ ['\r']) := by
  induction l with
  | nil => exact ⟨[], rfl, .inl rfl⟩
  | cons c l ih =>
    have hc : c ≠ '\n' := fun heq => h (heq ▸ List.mem_cons_self)
    obtain ⟨l', hl, hends⟩ := ih fun hmem => h (List.mem_cons_of_mem c hmem)
    by_cases hreturn : c = '\r' ∧ l = []
    · obtain ⟨rfl, rfl⟩ := hreturn
      exact ⟨[], rfl, .inr rfl⟩
    · refine ⟨c :: l', ?_, ?_⟩
      · rw [List.cons_append, lines_cons hc, hl]
        rintro ⟨hcr, hhead⟩
        cases l with
        | nil => exact hreturn ⟨hcr, rfl⟩
        | cons d l =>
          cases hhead
          exact h (by simp)
      · rcases hends with rfl | rfl
        · exact .inl rfl
        · exact .inr rfl

theorem lines_open {l : List Char} (h : '\n' ∉ l) : lines l = if l = [] then [] else [l] := by
  induction l with
  | nil => rfl
  | cons c l ih =>
    have hc : c ≠ '\n' := fun heq => h (heq ▸ List.mem_cons_self)
    have hl : '\n' ∉ l := fun hmem => h (List.mem_cons_of_mem c hmem)
    have hreturn : ¬ (c = '\r' ∧ l.head? = some '\n') :=
      fun ⟨_, hhead⟩ => hl (List.mem_of_mem_head? hhead)
    rw [lines_cons hc hreturn, ih hl, if_neg (List.cons_ne_nil c l)]
    cases l <;> rfl

theorem isDigit_of_mem_toString {n : Nat} {c : Char} (h : c ∈ (toString n).toList) : c.isDigit := by
  rw [Nat.toString_eq_ofList_toDigits, String.toList_ofList] at h
  exact Nat.isDigit_of_mem_toDigits (by decide) (by decide) h

end BusBench

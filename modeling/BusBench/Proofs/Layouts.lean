import BusBench.Fields
import Mathlib.Data.List.Nodup
import Mathlib.Data.List.Forall2

namespace BusBench

/-- What a document is made of: plain values, records with their keys, records whose keys depend
on a tag, and lists. -/
inductive Layout where
  | plain
  | record (fields : List (String × Layout))
  | tagged (tag : String) (variants : List (String × List String))
  | list (item : Layout)

/-- A table of a document with the keys it declares: a record, or a record that a tag selects. -/
inductive Table where
  | record (keys : List String)
  | variant (keys : List String)

/-- The second document is the first with a key added to one of its tables, at any depth, that
does not declare it. A record may be given as a list of what its keys hold. -/
inductive Stray (k : String) (v : Document) : Layout → Table → Document → Document → Prop where
  | record {fields : List (String × Layout)} (pre post : List (String × Document)) :
      k ∉ fields.map Prod.fst →
      Stray k v (.record fields) (.record (fields.map Prod.fst)) (.table (pre ++ post))
        (.table (pre ++ (k, v) :: post))
  | variant {tag name : String} {variants : List (String × List String)} {keys : List String}
      (pre post : List (String × Document)) : (pre ++ post).lookup tag = some (.text name) →
      variants.lookup name = some keys → k ≠ tag → k ∉ keys →
      Stray k v (.tagged tag variants) (.variant keys) (.table (pre ++ post))
        (.table (pre ++ (k, v) :: post))
  | entry {fields : List (String × Layout)} {key : String} {layout : Layout} {table : Table}
      {d d' : Document} (pre post : List (String × Document)) : (key, layout) ∈ fields →
      Stray k v layout table d d' →
      Stray k v (.record fields) table (.table (pre ++ (key, d) :: post))
        (.table (pre ++ (key, d') :: post))
  | field {before after : List (String × Layout)} {key : String} {layout : Layout} {table : Table}
      {d d' : Document} (pre post : List Document) : pre.length = before.length →
      Stray k v layout table d d' →
      Stray k v (.record (before ++ (key, layout) :: after)) table (.list (pre ++ d :: post))
        (.list (pre ++ d' :: post))
  | item {layout : Layout} {table : Table} {d d' : Document} (pre post : List Document) :
      Stray k v layout table d d' →
      Stray k v (.list layout) table (.list (pre ++ d :: post)) (.list (pre ++ d' :: post))

variable {α β : Type} {k : String} {v d d' : Document} {table : Table} {layout : Layout}

theorem map_eq_ok_iff {x : Except Mistake α} {f : α → β} {b : β} :
    x.map f = .ok b ↔ ∃ a, x = .ok a ∧ f a = b := by
  cases x <;> simp [Except.map]

theorem bind_eq_ok_iff {x : Except Mistake α} {f : α → Except Mistake β} {b : β} :
    x.bind f = .ok b ↔ ∃ a, x = .ok a ∧ f a = .ok b := by
  cases x <;> simp [Except.bind]

/-- What a stray key makes of a result: a record refuses it, a record that a tag selects does not
notice it. -/
def Table.answer (k : String) (a : α) : Table → Except Mistake α
  | record keys => .error (.unknownKey k keys)
  | variant _ => .ok a

theorem Table.answer_map (f : α → β) (a : α) :
    (table.answer k a).map f = table.answer k (f a) := by
  cases table <;> rfl

theorem Stray.not_null (h : Stray k v layout table d d') : d ≠ .null ∧ d' ≠ .null := by
  cases h <;> exact ⟨nofun, nofun⟩

namespace Reader

variable {r : Reader α}

/-- A stray key in a document that was read changes the result as its table says. -/
def Heeds (r : Reader α) (layout : Layout) : Prop :=
  ∀ ⦃k v table d d' a⦄, r d = .ok a → Stray k v layout table d d' → r d' = table.answer k a

theorem heeds_plain (r : Reader α) : r.Heeds .plain := nofun

theorem Heeds.map (h : r.Heeds layout) (f : α → β) :
    Heeds (fun d => (r d).map f) layout := by
  intro k v table d d' b hd hstray
  obtain ⟨a, hr, rfl⟩ := map_eq_ok_iff.mp hd
  simp only [h hr hstray, Table.answer_map]

/-- A check that heeds a stray key decides before what is checked after it. -/
theorem Heeds.bind {check : Reader Unit} {rest : Except Mistake Unit} (h : check.Heeds layout)
    (hstray : Stray k v layout table d d') (hcheck : (check d).bind (fun _ => rest) = .ok ()) :
    (check d').bind (fun _ => rest) = table.answer k () := by
  obtain ⟨u, hd, hrest⟩ := bind_eq_ok_iff.mp hcheck
  rw [h hd hstray]
  cases table with
  | record keys => rfl
  | variant keys => exact hrest

theorem nullable_eq (h : d ≠ .null) : nullable r d = (r d).map some := by
  cases d <;> first | rfl | exact absurd rfl h

theorem Heeds.nullable (h : r.Heeds layout) : (nullable r).Heeds layout := by
  intro k v table d d' b hd hstray
  rw [nullable_eq hstray.not_null.1] at hd
  rw [nullable_eq hstray.not_null.2]
  exact h.map some hd hstray

theorem mapM_splice {pre post : List Document} {as : List α}
    (h : (pre ++ d :: post).mapM r = .ok as) :
    ∃ xs a ys, r d = .ok a ∧ as = xs ++ a :: ys ∧
      ∀ d', (pre ++ d' :: post).mapM r = (r d').map fun a' => xs ++ a' :: ys := by
  simp only [List.mapM_append, List.mapM_cons] at h ⊢
  obtain ⟨xs, hpre, h⟩ := bind_eq_ok_iff.mp h
  obtain ⟨as', h, hall⟩ := bind_eq_ok_iff.mp h
  obtain ⟨a, hd, h⟩ := bind_eq_ok_iff.mp h
  obtain ⟨ys, hpost, htail⟩ := bind_eq_ok_iff.mp h
  cases htail
  cases hall
  refine ⟨xs, a, ys, hd, rfl, fun d' => ?_⟩
  rw [hpre, hpost]
  cases r d' <;> rfl

theorem Heeds.list (h : r.Heeds layout) : (list r).Heeds (.list layout) := by
  intro k v table d d' as hd hstray
  cases hstray with
  | item pre post hitem =>
    obtain ⟨xs, a, ys, ha, rfl, hothers⟩ := mapM_splice hd
    show (pre ++ _ :: post).mapM r = _
    rw [hothers, h ha hitem, Table.answer_map]

end Reader

theorem lookup_insert {pre post : List (String × β)} {key : String} {b : β} (h : key ≠ k) :
    (pre ++ (k, b) :: post).lookup key = (pre ++ post).lookup key := by
  simp [List.lookup_append, List.lookup_cons, beq_eq_false_iff_ne.mpr h]

theorem lookup_splice (pre post : List (String × β)) (key : String) (b b' : β) (key' : String) :
    (pre ++ (key, b) :: post).lookup key' = (pre ++ (key, b') :: post).lookup key' ∨
      key' = key ∧ (pre ++ (key, b) :: post).lookup key' = some b ∧
        (pre ++ (key, b') :: post).lookup key' = some b' := by
  by_cases hkey : key' = key
  · subst hkey
    cases hpre : pre.lookup key' with
    | some x => exact .inl (by simp [List.lookup_append, hpre])
    | none =>
      refine .inr ⟨rfl, ?_, ?_⟩ <;> simp [List.lookup_append, hpre]
  · exact .inl ((lookup_insert hkey).trans (lookup_insert hkey).symm)

namespace Fields

variable {f : Fields α} {fields : List (String × Layout)} {a : α}

/-- What a key holds, before and after a stray key that nobody noticed. -/
def Kin (layout : Layout) (found found' : Option Document) : Prop :=
  found = found' ∨ ∃ k v keys d d', found = some d ∧ found' = some d' ∧
    Stray k v layout (.variant keys) d d'

/-- A slot is for this key and checks what its layout says. -/
def Suits (s : Slot) (p : String × Layout) : Prop := s.key = p.1 ∧ Reader.Heeds s.check p.2

/-- A record is made of these keys, which hold what their layouts say. -/
structure Laid (f : Fields α) (fields : List (String × Layout)) : Prop where
  slots : List.Forall₂ Suits f.slots fields
  build : ∀ {get get' a}, (∀ p ∈ fields, Kin p.2 (get p.1) (get' p.1)) → f.build get = .ok a →
    f.build get' = .ok a

theorem laid_pure (a : α) : (pure a : Fields α).Laid [] := ⟨.nil, fun _ h => h⟩

theorem Kin.elim {r : Reader α} {found found' : Option Document} {x : Except Mistake α}
    (h : Kin layout found found') (hr : r.Heeds layout) (hread : found.elim x r = .ok a) :
    found'.elim x r = .ok a := by
  rcases h with rfl | ⟨k, v, keys, d, d', rfl, rfl, hstray⟩
  · exact hread
  · exact hr hread hstray

/-- A record of one key, with what is made of it when the key is not there. -/
structure Single (f : Fields α) (key : String) (needed : Bool) (r : Reader α)
    (absent : Except Mistake α) : Prop where
  slots : f.slots = [⟨key, needed, fun d => (r d).map fun _ => ()⟩]
  build : ∀ get, f.build get = (get key).elim absent r

theorem single_needed (key : String) (r : Reader α) :
    (needed key r).Single key true r (.error (.missing key)) := by
  refine ⟨rfl, fun get => ?_⟩
  simp only [needed]
  cases get key <;> rfl

theorem single_orElse (key : String) (r : Reader α) (fallback : α) :
    (orElse key r fallback).Single key false r (.ok fallback) := by
  refine ⟨rfl, fun get => ?_⟩
  simp only [orElse]
  cases get key <;> rfl

theorem Single.laid {r : Reader α} {key : String} {needed : Bool} {absent : Except Mistake α}
    (hf : f.Single key needed r absent) (h : r.Heeds layout) : f.Laid [(key, layout)] where
  slots := by
    rw [hf.slots]
    exact .cons ⟨rfl, h.map _⟩ .nil
  build := by
    intro get get' a hkin hread
    rw [hf.build] at hread ⊢
    exact (hkin _ List.mem_cons_self).elim h hread

theorem seq_build (f : Fields (α → β)) (g : Fields α) (get : String → Option Document) :
    (f <*> g).build get = (f.build get).bind fun h => (g.build get).map h := by
  cases hf : f.build get <;> simp [Seq.seq, hf, Except.bind]

theorem Laid.seq {f : Fields (α → β)} {g : Fields α} {fs gs : List (String × Layout)}
    (hf : f.Laid fs) (hg : g.Laid gs) : (f <*> g).Laid (fs ++ gs) := by
  refine ⟨List.rel_append hf.slots hg.slots, fun {get get' b} hkin hbuild => ?_⟩
  rw [seq_build] at hbuild ⊢
  obtain ⟨h, hh, hbuild⟩ := bind_eq_ok_iff.mp hbuild
  obtain ⟨a, ha, rfl⟩ := map_eq_ok_iff.mp hbuild
  rw [hf.build (fun p hp => hkin p (List.mem_append_left _ hp)) hh,
    hg.build (fun p hp => hkin p (List.mem_append_right _ hp)) ha]
  rfl

theorem Laid.needed {f : Fields (α → β)} {r : Reader α} {key : String} (hf : f.Laid fields)
    (h : r.Heeds layout) : (f <*> .needed key r).Laid (fields ++ [(key, layout)]) :=
  hf.seq ((single_needed key r).laid h)

theorem Laid.orElse {f : Fields (α → β)} {r : Reader α} {key : String} {fallback : α}
    (hf : f.Laid fields) (h : r.Heeds layout) :
    (f <*> .orElse key r fallback).Laid (fields ++ [(key, layout)]) :=
  hf.seq ((single_orElse key r fallback).laid h)

theorem keys_of_suits {slots : List Slot} (h : List.Forall₂ Suits slots fields) :
    slots.map (·.key) = fields.map Prod.fst := by
  induction h with
  | nil => rfl
  | cons hhead _ ih => rw [List.map_cons, List.map_cons, hhead.1, ih]

theorem Laid.keys_eq (h : f.Laid fields) : f.keys = fields.map Prod.fst := keys_of_suits h.slots

theorem Laid.find_none (h : f.Laid fields) (hk : k ∉ fields.map Prod.fst) :
    f.slots.find? (·.key = k) = none := by
  rw [List.find?_eq_none]
  intro s hs hkey
  rw [← h.keys_eq] at hk
  exact hk (List.mem_map.mpr ⟨s, hs, of_decide_eq_true hkey⟩)

theorem find_of_suits {slots : List Slot} {key : String} (h : List.Forall₂ Suits slots fields)
    (hnodup : (fields.map Prod.fst).Nodup) (hmem : (key, layout) ∈ fields) :
    ∃ s, slots.find? (·.key = key) = some s ∧ Reader.Heeds s.check layout := by
  induction h with
  | nil => cases hmem
  | @cons s p slots fields hhead hrest ih =>
    rw [List.map_cons, List.nodup_cons] at hnodup
    rcases List.mem_cons.mp hmem with heq | hmem
    · subst heq
      exact ⟨s, by simp [hhead.1], hhead.2⟩
    · have hother : s.key ≠ key := by
        rintro rfl
        exact hnodup.1 (List.mem_map.mpr ⟨_, hmem, hhead.1⟩)
      obtain ⟨s', hs', hheeds⟩ := ih hnodup.2 hmem
      exact ⟨s', by simp [hother, hs'], hheeds⟩

section

variable {strict : Bool} {es pre post : List (String × Document)} {name expected : String}
  {surplus : Option String} {n : Nat} {ds : List Document} {slots : List Slot}

theorem ofTable_eq_ok_iff : f.ofTable strict es = .ok a ↔
    f.checkEntries strict es = .ok () ∧ f.build (es.lookup ·) = .ok a := by
  unfold ofTable
  cases f.checkEntries strict es with
  | error e => simp
  | ok u => simp

theorem ofTable_refused {e : Mistake} (h : f.checkEntries strict es = .error e) :
    f.ofTable strict es = .error e := by
  unfold ofTable
  simp only [h]

theorem checkEntries_append : f.checkEntries strict (pre ++ post) =
    (f.checkEntries strict pre).bind fun _ => f.checkEntries strict post := by
  induction pre with
  | nil => rfl
  | cons e pre ih =>
    rw [List.cons_append, checkEntries, checkEntries, ih]
    cases f.slots.find? (·.key = e.1) with
    | none => cases strict <;> rfl
    | some s =>
      simp only
      cases s.check e.2 <;> rfl

/-- With the same entries before it, what is wrong with an entry is what is wrong with all. -/
theorem checkEntries_splice (h : f.checkEntries strict (pre ++ post) = .ok ()) :
    f.checkEntries strict post = .ok () ∧
      ∀ es, f.checkEntries strict (pre ++ es) = f.checkEntries strict es := by
  rw [checkEntries_append] at h
  obtain ⟨u, hpre, hpost⟩ := bind_eq_ok_iff.mp h
  refine ⟨hpost, fun es => ?_⟩
  rw [checkEntries_append, hpre]
  rfl

theorem checkEntries_slot {key : String} {s : Slot} (h : f.slots.find? (·.key = key) = some s) :
    f.checkEntries strict ((key, d) :: es) =
      (s.check d).bind fun _ => f.checkEntries strict es := by
  simp only [checkEntries, h]
  cases s.check d <;> rfl

theorem Laid.checkEntries_stray {key : String} (h : f.Laid fields)
    (hnodup : (fields.map Prod.fst).Nodup) (hmem : (key, layout) ∈ fields)
    (hstray : Stray k v layout table d d')
    (hcheck : f.checkEntries strict (pre ++ (key, d) :: post) = .ok ()) :
    f.checkEntries strict (pre ++ (key, d') :: post) = table.answer k () := by
  obtain ⟨s, hs, hheeds⟩ := find_of_suits h.slots hnodup hmem
  obtain ⟨hentry, hothers⟩ := checkEntries_splice hcheck
  rw [checkEntries_slot hs] at hentry
  rw [hothers, checkEntries_slot hs]
  exact hheeds.bind hstray hentry

theorem checkItems_cons {s : Slot} : checkItems expected n (s :: slots) (d :: ds) =
    (s.check d).bind fun _ => checkItems expected (n + 1) slots ds := by
  rw [checkItems]
  cases s.check d <;> rfl

theorem checkItems_stray {before after : List (String × Layout)} {key : String}
    {pre post : List Document}
    (hslots : List.Forall₂ Suits slots (before ++ (key, layout) :: after))
    (hlength : pre.length = before.length) (hstray : Stray k v layout table d d')
    (hcheck : checkItems expected n slots (pre ++ d :: post) = .ok ()) :
    checkItems expected n slots (pre ++ d' :: post) = table.answer k () := by
  -- The items before the changed one are checked as before, slot by slot.
  induction before generalizing n pre slots with
  | nil =>
    obtain rfl := List.length_eq_zero_iff.mp hlength
    cases hslots with
    | cons hhead _ =>
      rw [List.nil_append, checkItems_cons] at hcheck ⊢
      exact hhead.2.bind hstray hcheck
  | cons p before ih =>
    cases hslots with
    | @cons s _ slots _ _ hrest =>
      cases pre with
      | nil => cases hlength
      | cons x pre =>
        rw [List.cons_append, checkItems_cons] at hcheck ⊢
        obtain ⟨u, hx, hcheck⟩ := bind_eq_ok_iff.mp hcheck
        rw [hx]
        exact ih hrest (Nat.succ.inj hlength) hcheck

theorem ofItems_eq_ok_iff : f.ofItems name surplus ds = .ok a ↔
    checkItems (f.sized name) 0 f.slots ds = .ok () ∧
      f.build ((f.keys.zip ds).lookup ·) = .ok a ∧
      (surplus = none ∨ ds.length ≤ f.slots.length) := by
  unfold ofItems
  cases checkItems (f.sized name) 0 f.slots ds with
  | error e => simp
  | ok u =>
    cases f.build ((f.keys.zip ds).lookup ·) with
    | error e => cases surplus <;> simp
    | ok b =>
      cases surplus with
      | none => simp
      | some expected =>
        by_cases hlength : f.slots.length < ds.length
        · simp [hlength]
        · simp [hlength, Nat.not_lt.mp hlength]

theorem ofItems_refused {e : Mistake} (h : checkItems (f.sized name) 0 f.slots ds = .error e) :
    f.ofItems name surplus ds = .error e := by
  unfold ofItems
  simp only [h]

theorem kin_splice {keys : List String} {key : String} (hnodup : (fields.map Prod.fst).Nodup)
    (hmem : (key, layout) ∈ fields) (hstray : Stray k v layout (.variant keys) d d') :
    ∀ p ∈ fields, Kin p.2 ((pre ++ (key, d) :: post).lookup p.1)
      ((pre ++ (key, d') :: post).lookup p.1) := by
  intro p hp
  rcases lookup_splice pre post key d d' p.1 with hsame | ⟨hkey, hd, hd'⟩
  -- an earlier entry with the key hides both values
  · exact .inl hsame
  · have hp' : p = (key, layout) := List.inj_on_of_nodup_map hnodup hp hmem hkey
    subst hp'
    exact .inr ⟨k, v, keys, d, d', hd, hd', hstray⟩

theorem Laid.ofTable_lenient (h : f.Laid fields) (hk : k ∉ fields.map Prod.fst)
    (hread : f.ofTable false (pre ++ post) = .ok a) :
    f.ofTable false (pre ++ (k, v) :: post) = .ok a := by
  obtain ⟨hcheck, hbuild⟩ := ofTable_eq_ok_iff.mp hread
  obtain ⟨hpost, hothers⟩ := checkEntries_splice hcheck
  refine ofTable_eq_ok_iff.mpr ⟨?_, h.build (fun p hp => .inl ?_) hbuild⟩
  · rw [hothers, checkEntries, h.find_none hk]
    exact hpost
  · have hkey : p.1 ≠ k := fun heq => hk (heq ▸ List.mem_map_of_mem hp)
    exact (lookup_insert hkey).symm

/-- A record that refuses unknown keys heeds a stray key wherever it is. -/
theorem Laid.heeds {format : Format} (h : f.Laid fields) (hnodup : (fields.map Prod.fst).Nodup) :
    (f.reader format name true).Heeds (.record fields) := by
  intro k v table d d' a hd hstray
  cases hstray with
  | record pre post hk =>
    obtain ⟨hcheck, -⟩ := ofTable_eq_ok_iff.mp hd
    have hrefused : f.checkEntries true (pre ++ (k, v) :: post) =
        .error (.unknownKey k f.keys) := by
      rw [(checkEntries_splice hcheck).2, checkEntries, h.find_none hk]
      rfl
    rw [h.keys_eq] at hrefused
    exact ofTable_refused hrefused
  | entry pre post hmem hentry =>
    obtain ⟨hcheck, hbuild⟩ := ofTable_eq_ok_iff.mp hd
    have hdecides := h.checkEntries_stray hnodup hmem hentry hcheck
    cases table with
    | record keys => exact ofTable_refused hdecides
    | variant keys =>
      exact ofTable_eq_ok_iff.mpr ⟨hdecides, h.build (kin_splice hnodup hmem hentry) hbuild⟩
  | @field before after key layout _ d d' pre post hlength hfield =>
    obtain ⟨hcheck, hbuild, hsurplus⟩ := ofItems_eq_ok_iff.mp hd
    have hdecides := checkItems_stray h.slots hlength hfield hcheck
    cases table with
    | record keys => exact ofItems_refused hdecides
    | variant keys =>
      -- Items are looked up by their keys, so a changed item is a changed entry.
      have hzip : ∀ d, f.keys.zip (pre ++ d :: post) =
          (before.map Prod.fst).zip pre ++ (key, d) :: (after.map Prod.fst).zip post := by
        intro d
        rw [h.keys_eq, List.map_append, List.map_cons,
          List.zip_append (by rw [List.length_map, hlength]), List.zip_cons_cons]
      have hmem : (key, layout) ∈ before ++ (key, layout) :: after := by simp
      refine ofItems_eq_ok_iff.mpr ⟨hdecides, ?_, ?_⟩
      · rw [hzip] at hbuild ⊢
        exact h.build (kin_splice hnodup hmem hfield) hbuild
      · simpa using hsurplus

end

end Fields

namespace Variant

variable {variants : List (Variant α)} {tags : List (String × List String)} {a : α}

/-- A variant has this tag and these keys. -/
def Suits (x : Variant α) (p : String × List String) : Prop :=
  x.tag = p.1 ∧ ∃ fields, x.fields.Laid fields ∧ fields.map Prod.fst = p.2

theorem find_of_suits {name : String} {keys : List String} (h : List.Forall₂ Suits variants tags)
    (hkeys : tags.lookup name = some keys) :
    ∃ x fields, find variants (.text name) = .ok x ∧ x.fields.Laid fields ∧
      fields.map Prod.fst = keys := by
  suffices hfind : ∃ x fields, variants.find? (·.tag = name) = some x ∧ x.fields.Laid fields ∧
      fields.map Prod.fst = keys by
    obtain ⟨x, fields, hx, hlaid⟩ := hfind
    exact ⟨x, fields, by simp only [find, hx], hlaid⟩
  induction h with
  | nil => cases hkeys
  | @cons x p variants tags hhead _ ih =>
    obtain ⟨htag, fields, hlaid, hfields⟩ := hhead
    by_cases hname : name = p.1
    · subst hname
      rw [List.lookup_cons, beq_self_eq_true] at hkeys
      cases hkeys
      exact ⟨x, fields, by simp [htag], hlaid, hfields⟩
    · rw [List.lookup_cons, beq_eq_false_iff_ne.mpr hname] at hkeys
      obtain ⟨x', fields', hx', hlaid'⟩ := ih hkeys
      refine ⟨x', fields', ?_, hlaid'⟩
      rw [List.find?_cons_of_neg, hx']
      simpa [htag] using Ne.symm hname

/-- A record that a tag selects does not notice a stray key. -/
theorem heeds {key name : String} (h : List.Forall₂ Suits variants tags) :
    (reader variants key name).Heeds (.tagged key tags) := by
  intro k v table d d' a hd hstray
  cases hstray with
  | variant pre post htag hkeys hkey hk =>
    obtain ⟨x, fields, hx, hlaid, rfl⟩ := find_of_suits h hkeys
    simp only [reader, htag, hx, lookup_insert hkey.symm] at hd ⊢
    rw [List.filter_append] at hd
    rw [List.filter_append, List.filter_cons_of_pos (by simpa using hkey)]
    exact hlaid.ofTable_lenient hk hd

end Variant

end BusBench

import BusBench.Proofs.Layouts

namespace BusBench

variable {α β : Type} {R : α → β → Prop}

namespace Document

/-- A document without a null, at any depth. -/
inductive NullFree : Document → Prop where
  | bool (b : Bool) : NullFree (.bool b)
  | int (n : Int) : NullFree (.int n)
  | float (x : Binary64) : NullFree (.float x)
  | text (s : String) : NullFree (.text s)
  | list {ds : List Document} (items : ∀ d ∈ ds, NullFree d) : NullFree (.list ds)
  | table {es : List (String × Document)} (entries : ∀ e ∈ es, NullFree e.2) :
      NullFree (.table es)

attribute [simp] NullFree.bool NullFree.int NullFree.float NullFree.text

variable {d : Document} {ds : List Document} {es : List (String × Document)}

@[simp]
theorem nullFree_list : (list ds).NullFree ↔ ∀ d ∈ ds, d.NullFree :=
  ⟨fun h => by cases h; assumption, .list⟩

@[simp]
theorem nullFree_table : (table es).NullFree ↔ ∀ e ∈ es, e.2.NullFree :=
  ⟨fun h => by cases h; assumption, .table⟩

theorem NullFree.not_null (h : d.NullFree) : d ≠ .null := by
  rintro rfl
  cases h

end Document

/-- In two lists that go together, what is found goes together. -/
theorem find?_of_forall₂ {p : α → Bool} {q : β → Bool} {xs : List α} {ys : List β} {x : α}
    (h : List.Forall₂ R xs ys) (hpq : ∀ {x y}, R x y → p x = q y) (hx : xs.find? p = some x) :
    ∃ y, ys.find? q = some y ∧ R x y := by
  induction h with
  | nil => cases hx
  | @cons x' y' xs ys hhead _ ih =>
    rw [List.find?_cons] at hx
    rw [List.find?_cons, ← hpq hhead]
    cases hp : p x' with
    | true =>
      rw [hp] at hx
      cases hx
      exact ⟨y', rfl, hhead⟩
    | false =>
      rw [hp] at hx
      exact ih hx

namespace Reader

variable {r : Reader α} {r' : Reader β} {d : Document}

/-- What one reader makes of a value, the other one makes something of that goes with it. -/
def Covered (R : α → β → Prop) (r : Reader α) (r' : Reader β) : Prop :=
  ∀ ⦃d a⦄, d.NullFree → r d = .ok a → ∃ b, r' d = .ok b ∧ R a b

theorem covered_self (r : Reader α) : Covered Eq r r := fun _ a _ h => ⟨a, h, rfl⟩

theorem list_eq_ok_iff {ds : List Document} {as : List α} :
    list r (.list ds) = .ok as ↔ List.Forall₂ (fun d a => r d = .ok a) ds as := by
  show ds.mapM r = .ok as ↔ _
  induction ds generalizing as with
  | nil => cases as <;> simp [pure, Except.pure]
  | cons d ds ih =>
    rw [List.mapM_cons]
    constructor
    · intro h
      obtain ⟨a, ha, h⟩ := bind_eq_ok_iff.mp h
      obtain ⟨as, has, h⟩ := bind_eq_ok_iff.mp h
      cases h
      exact .cons ha (ih.mp has)
    · rintro (_ | ⟨ha, has⟩)
      rw [ha, ih.mpr has]
      rfl

theorem Covered.list (h : Covered R r r') : Covered (List.Forall₂ R) (list r) (list r') := by
  intro d as hd hread
  cases hd with
  | @list ds hitems =>
    have hpairs := list_eq_ok_iff.mp hread
    suffices hothers : ∃ bs, List.Forall₂ (fun d b => r' d = .ok b) ds bs ∧ List.Forall₂ R as bs by
      obtain ⟨bs, hbs, hR⟩ := hothers
      exact ⟨bs, list_eq_ok_iff.mpr hbs, hR⟩
    clear hread
    induction hpairs with
    | nil => exact ⟨[], .nil, .nil⟩
    | cons ha _ ih =>
      obtain ⟨b, hb, hR⟩ := h (hitems _ List.mem_cons_self) ha
      obtain ⟨bs, hbs, hRs⟩ := ih fun x hx => hitems x (List.mem_cons_of_mem _ hx)
      exact ⟨b :: bs, .cons hb hbs, .cons hR hRs⟩
  | _ => cases hread

/-- Only a null tells apart a value that may be missing from one that must be there. -/
theorem Covered.present {s : Reader α} (h : Covered Eq r s) :
    Covered Eq (nullable r) (present s) := by
  intro d x hd hread
  rw [nullable_eq hd.not_null] at hread
  obtain ⟨a, ha, rfl⟩ := map_eq_ok_iff.mp hread
  obtain ⟨b, hb, rfl⟩ := h hd ha
  exact ⟨some a, map_eq_ok_iff.mpr ⟨a, hb, rfl⟩, rfl⟩

/-- A value that may be missing is read back where the value is. -/
theorem nullable_ofOption {r : Reader α} {f : α → Document} (hread : ∀ a, r (f a) = .ok a)
    (hnull : ∀ a, f a ≠ .null) (x : Option α) : nullable r (.ofOption f x) = .ok x := by
  cases x with
  | none => rfl
  | some a =>
    rw [Document.ofOption, nullable_eq (hnull a), hread]
    rfl

end Reader

namespace Fields

open Reader

/-- Two slots for one key, the second of which lets pass what the first does. -/
structure Slot.Covered (s t : Slot) : Prop where
  key : s.key = t.key
  needed : s.needed = t.needed
  check : ∀ {d}, d.NullFree → s.check d = .ok () → t.check d = .ok ()

/-- Records of the same keys, what the first is made of making the second with what goes with
it. -/
structure Covered (R : α → β → Prop) (f : Fields α) (g : Fields β) : Prop where
  slots : List.Forall₂ Slot.Covered f.slots g.slots
  build : ∀ {get a}, (∀ k d, get k = some d → d.NullFree) → f.build get = .ok a →
    ∃ b, g.build get = .ok b ∧ R a b

theorem covered_pure {a : α} {b : β} (h : R a b) : Covered R (pure a) (pure b) :=
  ⟨.nil, fun _ hread => ⟨b, rfl, by cases hread; exact h⟩⟩

theorem Single.covered {f g : Fields α} {r s : Reader α} {key : String} {needed : Bool}
    {absent : Except Mistake α} (hf : f.Single key needed r absent)
    (hg : g.Single key needed s absent) (h : Reader.Covered Eq r s) : Covered Eq f g where
  slots := by
    rw [hf.slots, hg.slots]
    refine .cons ⟨rfl, rfl, fun {d} hd hcheck => ?_⟩ .nil
    obtain ⟨a, ha, -⟩ := map_eq_ok_iff.mp hcheck
    obtain ⟨b, hb, -⟩ := h hd ha
    exact map_eq_ok_iff.mpr ⟨b, hb, rfl⟩
  build := by
    intro get a hget hread
    rw [hf.build] at hread
    rw [hg.build]
    cases hd : get key with
    | none =>
      rw [hd] at hread
      exact ⟨a, hread, rfl⟩
    | some d =>
      rw [hd] at hread
      exact h (hget key d hd) hread

theorem Covered.seq {γ δ : Type} {S : γ → δ → Prop} {f : Fields (α → γ)} {g : Fields (α → δ)}
    {x y : Fields α} (hf : Covered (fun h k => ∀ a, S (h a) (k a)) f g) (hx : Covered Eq x y) :
    Covered S (f <*> x) (g <*> y) := by
  refine ⟨List.rel_append hf.slots hx.slots, fun {get c} hget hread => ?_⟩
  rw [seq_build] at hread
  obtain ⟨h, hh, hread⟩ := bind_eq_ok_iff.mp hread
  obtain ⟨a, ha, rfl⟩ := map_eq_ok_iff.mp hread
  obtain ⟨k, hk, hS⟩ := hf.build hget hh
  obtain ⟨_, hb, rfl⟩ := hx.build hget ha
  exact ⟨k a, by rw [seq_build, hk, hb]; rfl, hS a⟩

section

variable {γ δ : Type} {S : γ → δ → Prop} {f : Fields (α → γ)} {g : Fields (α → δ)}
  {r s : Reader α} {key : String}

theorem Covered.needed (hf : Covered (fun h k => ∀ a, S (h a) (k a)) f g)
    (h : Reader.Covered Eq r s) : Covered S (f <*> .needed key r) (g <*> .needed key s) :=
  hf.seq ((single_needed key r).covered (single_needed key s) h)

theorem Covered.orElse {fallback : α} (hf : Covered (fun h k => ∀ a, S (h a) (k a)) f g)
    (h : Reader.Covered Eq r s) :
    Covered S (f <*> .orElse key r fallback) (g <*> .orElse key s fallback) :=
  hf.seq ((single_orElse key r fallback).covered (single_orElse key s fallback) h)

end

section

variable {f : Fields α} {g : Fields β} {slots others : List Slot} {k : String} {a : α}
  {es : List (String × Document)} {ds : List Document}

theorem keys_of_covered (h : List.Forall₂ Slot.Covered slots others) :
    slots.map (·.key) = others.map (·.key) := by
  induction h with
  | nil => rfl
  | cons hhead _ ih => rw [List.map_cons, List.map_cons, hhead.key, ih]

/-- Where unknown keys are let be, an entry is looked at on its own. -/
theorem checkEntries_lenient_iff : f.checkEntries false es = .ok () ↔
    ∀ e ∈ es, ∀ s, f.slots.find? (·.key = e.1) = some s → s.check e.2 = .ok () := by
  induction es with
  | nil => simp [Fields.checkEntries]
  | cons e es ih =>
    obtain ⟨k, d⟩ := e
    rw [List.forall_mem_cons, ← ih]
    cases hs : f.slots.find? (·.key = k) with
    | none => simp [Fields.checkEntries, hs]
    | some s =>
      rw [checkEntries_slot hs]
      cases hd : s.check d <;> simp [hd, Except.bind]

theorem Covered.checkEntries (h : Covered R f g) (hes : ∀ e ∈ es, e.2.NullFree)
    (hcheck : f.checkEntries false es = .ok ()) : g.checkEntries false es = .ok () := by
  rw [checkEntries_lenient_iff] at hcheck ⊢
  intro e he t ht
  obtain ⟨s, hs, hcovered⟩ :=
    find?_of_forall₂ (q := (·.key = e.1)) h.slots.flip (fun hst => by rw [hst.key]) ht
  exact hcovered.check (hes e he) (hcheck e he s hs)

theorem checkItems_covered {name other : String} {n : Nat}
    (h : List.Forall₂ Slot.Covered slots others) (hds : ∀ d ∈ ds, d.NullFree)
    (hcheck : checkItems name n slots ds = .ok ()) : checkItems other n others ds = .ok () := by
  induction h generalizing n ds with
  | nil => rfl
  | @cons s t slots others hhead _ ih =>
    cases ds with
    | nil =>
      -- where the items have run out, all that counts is which slots are needed
      rw [checkItems, hhead.needed] at hcheck
      rw [checkItems]
      by_cases hneeded : t.needed = true
      · rw [if_pos hneeded] at hcheck
        cases hcheck
      · rw [if_neg hneeded] at hcheck ⊢
        exact ih (List.forall_mem_nil _) hcheck
    | cons d ds =>
      rw [checkItems_cons] at hcheck ⊢
      obtain ⟨u, hd, hcheck⟩ := bind_eq_ok_iff.mp hcheck
      rw [hhead.check (hds d List.mem_cons_self) hd]
      exact ih (fun x hx => hds x (List.mem_cons_of_mem _ hx)) hcheck

theorem mem_of_lookup {d : Document} (h : es.lookup k = some d) : (k, d) ∈ es := by
  obtain ⟨pre, post, rfl, -⟩ := List.lookup_eq_some_iff.mp h
  exact List.mem_append_right _ List.mem_cons_self

theorem Covered.ofTable (h : Covered R f g) (hes : ∀ e ∈ es, e.2.NullFree)
    (hread : f.ofTable false es = .ok a) : ∃ b, g.ofTable false es = .ok b ∧ R a b := by
  obtain ⟨hcheck, hbuild⟩ := ofTable_eq_ok_iff.mp hread
  have hget : ∀ k d, es.lookup k = some d → d.NullFree := by
    intro k d hd
    exact hes (k, d) (mem_of_lookup hd)
  obtain ⟨b, hb, hR⟩ := h.build hget hbuild
  exact ⟨b, ofTable_eq_ok_iff.mpr ⟨h.checkEntries hes hcheck, hb⟩, hR⟩

theorem Covered.ofItems {name other expected expected' : String} (h : Covered R f g)
    (hds : ∀ d ∈ ds, d.NullFree) (hread : f.ofItems name (some expected) ds = .ok a) :
    ∃ b, g.ofItems other (some expected') ds = .ok b ∧ R a b := by
  obtain ⟨hcheck, hbuild, hlength⟩ := ofItems_eq_ok_iff.mp hread
  have hkeys : f.keys = g.keys := keys_of_covered h.slots
  have hget : ∀ k d, (f.keys.zip ds).lookup k = some d → d.NullFree := by
    intro k d hd
    exact hds d (List.of_mem_zip (mem_of_lookup hd)).2
  obtain ⟨b, hb, hR⟩ := h.build hget hbuild
  refine ⟨b, ofItems_eq_ok_iff.mpr ⟨checkItems_covered h.slots hds hcheck, hkeys ▸ hb, .inr ?_⟩, hR⟩
  rw [← h.slots.length_eq]
  exact hlength.resolve_left nofun

/-- What the keys of a record hold passes its checks and makes this of it. -/
structure Made (es : List (String × Document)) (f : Fields α) (a : α) : Prop where
  check : ∀ s ∈ f.slots, ∀ d, es.lookup s.key = some d → s.check d = .ok ()
  build : f.build (es.lookup ·) = .ok a

theorem made_pure (a : α) : Made es (pure a) a := ⟨nofun, rfl⟩

/-- The next key of a record holds what its reader makes this of. -/
theorem Made.next {f : Fields (α → β)} {x : Fields α} {h : α → β} {r : Reader α} {key : String}
    {d : Document} {needed : Bool} {absent : Except Mistake α} (hf : Made es f h)
    (hx : x.Single key needed r absent) (hd : es.lookup key = some d) (hread : r d = .ok a) :
    Made es (f <*> x) (h a) where
  check := by
    intro s hs d' hd'
    rcases List.mem_append.mp hs with hs | hs
    · exact hf.check s hs d' hd'
    · rw [hx.slots, List.mem_singleton] at hs
      subst hs
      obtain rfl : d = d' := Option.some.inj (hd.symm.trans hd')
      simp only [hread]
      rfl
  build := by
    rw [seq_build, hf.build, hx.build, hd, Option.elim_some, hread]
    rfl

section

variable {f : Fields (α → β)} {h : α → β} {r : Reader α} {key : String} {d : Document}

theorem Made.needed (hf : Made es f h) (hd : es.lookup key = some d) (hread : r d = .ok a) :
    Made es (f <*> .needed key r) (h a) :=
  hf.next (single_needed key r) hd hread

theorem Made.orElse {fallback : α} (hf : Made es f h) (hd : es.lookup key = some d)
    (hread : r d = .ok a) : Made es (f <*> .orElse key r fallback) (h a) :=
  hf.next (single_orElse key r fallback) hd hread

end

theorem Made.ofTable (h : Made es f a) (hkeys : (es.map Prod.fst).Nodup) :
    f.ofTable false es = .ok a := by
  refine ofTable_eq_ok_iff.mpr ⟨checkEntries_lenient_iff.mpr fun e he s hs => ?_, h.build⟩
  have hkey : s.key = e.1 := by simpa using List.find?_some hs
  refine h.check s (List.mem_of_find?_eq_some hs) e.2 ?_
  obtain ⟨pre, post, rfl⟩ := List.append_of_mem he
  rw [List.map_append, List.map_cons] at hkeys
  refine List.lookup_eq_some_iff.mpr ⟨pre, post, by rw [hkey], fun p hp => ?_⟩
  have hother : p.1 ≠ e.1 := fun heq => (List.nodup_append.mp hkeys).2.2 p.1
    (List.mem_map_of_mem hp) e.1 List.mem_cons_self heq
  simpa [hkey] using hother.symm

end

end Fields

namespace Variant

open Reader

/-- Two records for one tag, the second of which covers the first. -/
def Covered (R : α → β → Prop) (v : Variant α) (w : Variant β) : Prop :=
  v.tag = w.tag ∧ v.fields.Covered R w.fields

variable {vs : List (Variant α)} {ws : List (Variant β)} {v : Variant α} {d : Document}

theorem find_of_covered (h : List.Forall₂ (Covered R) vs ws) (hfind : find vs d = .ok v) :
    ∃ w, find ws d = .ok w ∧ Covered R v w := by
  cases d with
  | text tag =>
    cases hv : vs.find? (·.tag = tag) with
    | none => simp only [find, hv] at hfind; cases hfind
    | some v' =>
      simp only [find, hv] at hfind
      cases hfind
      obtain ⟨w, hw, hcovered⟩ :=
        find?_of_forall₂ (q := (·.tag = tag)) h (fun hvw => by rw [hvw.1]) hv
      exact ⟨w, by simp only [find, hw], hcovered⟩
  | _ => cases hfind

theorem reader_covered {key name other : String} (h : List.Forall₂ (Covered R) vs ws) :
    Reader.Covered R (reader vs key name) (reader ws key other) := by
  intro d a hd hread
  cases hd with
  | @table es hes =>
    cases htag : es.lookup key with
    | none => simp only [reader, htag] at hread; cases hread
    | some tag =>
      cases hv : find vs tag with
      | error e => simp only [reader, htag, hv] at hread; cases hread
      | ok v =>
        simp only [reader, htag, hv] at hread
        obtain ⟨w, hw, -, hfields⟩ := find_of_covered h hv
        simp only [reader, htag, hw]
        exact hfields.ofTable (fun e he => hes e (List.mem_of_mem_filter he)) hread
  | @list ds hds =>
    cases ds with
    | nil => cases hread
    | cons tag ds =>
      cases hv : find vs tag with
      | error e => simp only [reader, hv] at hread; cases hread
      | ok v =>
        simp only [reader, hv] at hread
        obtain ⟨w, hw, -, hfields⟩ := find_of_covered h hv
        simp only [reader, hw]
        exact hfields.ofItems (fun x hx => hds x (List.mem_cons_of_mem _ hx)) hread
  | _ => cases hread

theorem reader_table {key name tag : String} {es : List (String × Document)}
    (htag : es.lookup key = some (.text tag)) (hv : vs.find? (·.tag = tag) = some v) :
    reader vs key name (.table es) = v.fields.ofTable false (es.filter (·.1 ≠ key)) := by
  simp only [reader, htag, find, hv]

end Variant

end BusBench

import BusBench.Reading

namespace BusBench

/-- One key of a record: whether it must be there, and what it may hold. -/
structure Slot where
  key : String
  needed : Bool
  check : Document → Except Mistake Unit

/-- A record in the making: its keys in order, and how it is made of what they hold. -/
structure Fields (α : Type) where
  slots : List Slot
  build : (String → Option Document) → Except Mistake α

namespace Fields

/-- A key that must be there. -/
def needed {α : Type} (key : String) (r : Reader α) : Fields α where
  slots := [⟨key, true, fun d => (r d).map fun _ => ()⟩]
  build get :=
    match get key with
    | some d => r d
    | none => .error (.missing key)

/-- A key with a value to fall back to. -/
def orElse {α : Type} (key : String) (r : Reader α) (fallback : α) : Fields α where
  slots := [⟨key, false, fun d => (r d).map fun _ => ()⟩]
  build get :=
    match get key with
    | some d => r d
    | none => .ok fallback

instance : Applicative Fields where
  pure a := ⟨[], fun _ => .ok a⟩
  seq f a :=
    { slots := f.slots ++ (a ()).slots
      build := fun get =>
        match f.build get with
        | .ok g => ((a ()).build get).map g
        | .error e => .error e }

variable {α : Type}

def keys (f : Fields α) : List String := f.slots.map (·.key)

/-- Looks at the entries in order: a key without a slot is refused, unless such keys are let be. -/
def checkEntries (f : Fields α) (strict : Bool) : List (String × Document) → Except Mistake Unit
  | [] => .ok ()
  | (k, d) :: es =>
    match f.slots.find? (·.key = k) with
    | some slot =>
      match slot.check d with
      | .ok () => f.checkEntries strict es
      | .error e => .error e
    | none => if strict then .error (.unknownKey k f.keys) else f.checkEntries strict es

/-- Reads a record from the entries of a table. -/
def ofTable (f : Fields α) (strict : Bool) (es : List (String × Document)) : Except Mistake α :=
  match f.checkEntries strict es with
  | .ok () => f.build (es.lookup ·)
  | .error e => .error e

/-- The name of a record with the number of its keys. -/
def sized (f : Fields α) (name : String) : String :=
  name ++ " with " ++ toString f.slots.length ++
    (if f.slots.length = 1 then " element" else " elements")

/-- Looks at items in the order of the slots, from slot `n` on: all that are needed must be
there. -/
def checkItems (expected : String) (n : Nat) : List Slot → List Document → Except Mistake Unit
  | [], _ => .ok ()
  | slot :: slots, [] =>
    if slot.needed then .error (.wrongLength n expected) else checkItems expected (n + 1) slots []
  | slot :: slots, d :: ds =>
    match slot.check d with
    | .ok () => checkItems expected (n + 1) slots ds
    | .error e => .error e

/-- Reads a record from items in the order of its keys. -/
def ofItems (f : Fields α) (name : String) (surplus : Option String) (ds : List Document) :
    Except Mistake α :=
  match checkItems (f.sized name) 0 f.slots ds with
  | .error e => .error e
  | .ok () =>
    match f.build ((f.keys.zip ds).lookup ·), surplus with
    | .ok a, some expected =>
      if f.slots.length < ds.length then .error (.wrongLength ds.length expected) else .ok a
    | result, _ => result

/-- Reads a record, which may also be given as a plain list. -/
def reader (f : Fields α) (format : Format) (name : String) (strict : Bool) : Reader α
  | .table es => f.ofTable strict es
  | .list ds =>
    f.ofItems name (if format.surplusItems then none else some "fewer elements in array") ds
  | d => .error (.wrongKind d name)

end Fields

/-- One of several records, told apart by a tag. -/
structure Variant (α : Type) where
  tag : String
  name : String
  fields : Fields α

namespace Variant

variable {α : Type}

/-- The variant that a tag names. -/
def find (variants : List (Variant α)) : Document → Except Mistake (Variant α)
  | .text s =>
    match variants.find? (·.tag = s) with
    | some v => .ok v
    | none => .error (.unknownVariant s (variants.map (·.tag)))
  | d => .error (.wrongKind d "variant identifier")

/-- The number of items a record takes. -/
def itemCount (n : Nat) : String :=
  toString n ++ (if n = 1 then " element" else " elements") ++ " in sequence"

/-- Reads the record named by the entry at `key`, or by the first item of a list. -/
def reader (variants : List (Variant α)) (key name : String) : Reader α
  | .table es =>
    match es.lookup key with
    | none => .error (.missing key)
    | some tag =>
      match find variants tag with
      | .error e => .error e
      | .ok v => v.fields.ofTable false (es.filter (·.1 ≠ key))
  | .list [] => .error (.missing key)
  | .list (tag :: ds) =>
    match find variants tag with
    | .error e => .error e
    | .ok v => v.fields.ofItems v.name (some (itemCount v.fields.slots.length)) ds
  | d => .error (.wrongKind d name)

end Variant

end BusBench

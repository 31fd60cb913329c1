import StoreQuery.Error

/-! # Parameters

A set of parameters is a row of named slots, in the order in which the names were registered, and an
index that gives the place of each name in the row. Each slot holds a value or waits for one.
-/

namespace StoreQuery

/-- What a change comes to: its error, if it is refused, and the state that it leaves. -/
abbrev Change (σ : Type) := Except QueryError Unit × σ

/-- The state that a change leaves, if it is not refused. -/
def Change.settled {σ : Type} : Change σ → Except QueryError σ
  | (.ok (), s) => .ok s
  | (.error e, _) => .error e

structure Slot where
  name : String
  value : Option Value

namespace Slot

def isEmpty (s : Slot) : Bool :=
  s.value.isNone

def fill (s : Slot) (value : Value) : Slot :=
  { s with value := some value }

def clear (s : Slot) : Slot :=
  { s with value := none }

theorem map_name_modify_fill (slots : List Slot) (i : Nat) (value : Value) :
    (slots.modify i (·.fill value)).map name = slots.map name := by
  apply List.ext_getElem?
  intro j
  simp only [List.getElem?_map, List.getElem?_modify]
  cases slots[j]? with
  | none => rfl
  | some s => by_cases h : i = j <;> simp [h, fill]

theorem map_name_map_clear (slots : List Slot) :
    (slots.map clear).map name = slots.map name := by
  rw [List.map_map]
  rfl

def same (s t : Slot) : Bool :=
  s.name == t.name &&
    match s.value, t.value with
    | none, none => true
    | some v, some w => v.same w
    | _, _ => false

end Slot

/-- Whether an index gives the places of some names: it has a place for a name exactly if the name
stands there. -/
def IsIndex (index : List (String × Nat)) (names : List String) : Prop :=
  ∀ name i, index.lookup name = some i ↔ names[i]? = some name

/-- A new name behind the others is found at the place behind the others. -/
theorem IsIndex.concat {index : List (String × Nat)} {names : List String} {name : String}
    (h : IsIndex index names) (hname : index.lookup name = none) :
    IsIndex ((name, names.length) :: index) (names ++ [name]) := by
  intro m i
  rw [List.lookup_cons]
  by_cases hm : m = name
  · subst hm
    have hnone : names[i]? ≠ some m := by
      rw [ne_eq, ← h m i, hname]
      nofun
    rw [beq_self_eq_true]
    rcases Nat.lt_trichotomy i names.length with hi | hi | hi
    · simpa [List.getElem?_append_left hi, hnone] using (Nat.ne_of_lt hi).symm
    · simp [hi]
    · have hlast : (names ++ [m])[i]? = none := by simpa using Nat.succ_le_of_lt hi
      simpa [hlast] using Nat.ne_of_lt hi
  · rw [beq_eq_false_iff_ne.2 hm, h m i]
    by_cases hi : i < names.length
    · rw [List.getElem?_append_left hi]
    · have hnone : names[i]? = none := List.getElem?_eq_none (Nat.le_of_not_lt hi)
      rw [hnone, List.getElem?_append_right (Nat.le_of_not_lt hi), List.getElem?_singleton]
      split
      · simpa using Ne.symm hm
      · rfl

@[ext]
structure Parameters where
  slots : List Slot
  index : List (String × Nat)
  isIndex : IsIndex index (slots.map Slot.name)

/-- What stands for a registered parameter: its name and its place in the row. -/
structure Handle where
  name : String
  index : Nat
  deriving DecidableEq, Repr

namespace Parameters

def empty : Parameters :=
  ⟨[], [], by simp [IsIndex]⟩

def names (p : Parameters) : List String :=
  p.slots.map Slot.name

def size (p : Parameters) : Nat :=
  p.slots.length

def isEmpty (p : Parameters) : Bool :=
  p.slots.isEmpty

def place? (p : Parameters) (name : String) : Option Nat :=
  p.index.lookup name

def slot? (p : Parameters) (name : String) : Option Slot :=
  (p.place? name).bind fun i => p.slots[i]?

def handle? (p : Parameters) (name : String) : Option Handle :=
  (p.place? name).map fun i => ⟨name, i⟩

def add (p : Parameters) (name : String) : Parameters :=
  match h : p.place? name with
  | some _ => p
  | none =>
    ⟨p.slots ++ [⟨name, none⟩], (name, p.size) :: p.index, by
      simpa [size] using p.isIndex.concat h⟩

def handleOf (p : Parameters) (name : String) : Handle :=
  ⟨name, (p.place? name).getD p.size⟩

def ofNames (names : List String) : Parameters :=
  names.foldl add empty

def fill (p : Parameters) (name : String) (value : Value) : Parameters :=
  match p.place? name with
  | some i =>
    ⟨p.slots.modify i (·.fill value), p.index,
      (Slot.map_name_modify_fill p.slots i value).symm ▸ p.isIndex⟩
  | none => p

/-- A registered parameter gets a value, whether or not it has one. -/
def replace (p : Parameters) (name : String) (value : Value) : Change Parameters :=
  match p.slot? name with
  | some _ => (.ok (), p.fill name value)
  | none => (.error (.unknownParameter name), p)

/-- A registered parameter that has no value gets one. -/
def supply (p : Parameters) (name : String) (value : Value) : Change Parameters :=
  match p.slot? name with
  | some ⟨_, some _⟩ => (.error (.alreadyBound name), p)
  | some ⟨_, none⟩ => (.ok (), p.fill name value)
  | none => (.error (.unknownParameter name), p)

def rebind (p : Parameters) (name : String) (value : Value) : Except QueryError Parameters :=
  (p.replace name value).settled

def bind (p : Parameters) (name : String) (value : Value) : Except QueryError Parameters :=
  (p.supply name value).settled

/-- The value behind a handle. The handle has to be one of this set. -/
def get (p : Parameters) (h : Handle) : Except QueryError Value :=
  match p.slots[h.index]? with
  | some s =>
    if s.name = h.name then
      match s.value with
      | some v => .ok v
      | none => .error (.unresolvedParameter h.name)
    else .error (.unknownParameter h.name)
  | none => .error (.unknownParameter h.name)

def value? (p : Parameters) (name : String) : Option Value :=
  (p.slot? name).bind Slot.value

/-- The value of a name. Without one it is unresolved, registered or not. -/
def value (p : Parameters) (name : String) : Except QueryError Value :=
  match p.value? name with
  | some v => .ok v
  | none => .error (.unresolvedParameter name)

def isBound (p : Parameters) (name : String) : Bool :=
  (p.value? name).isSome

def isOf (p : Parameters) (name : String) (kind : ValueKind) : Bool :=
  (p.value? name).any (·.isOf kind)

def unresolved (p : Parameters) : List String :=
  (p.slots.filter Slot.isEmpty).map Slot.name

def ensureResolved (p : Parameters) : Except QueryError Unit :=
  match p.slots.find? Slot.isEmpty with
  | some s => .error (.unresolvedParameter s.name)
  | none => .ok ()

def reset (p : Parameters) : Parameters :=
  ⟨p.slots.map Slot.clear, p.index, (Slot.map_name_map_clear p.slots).symm ▸ p.isIndex⟩

def same (p q : Parameters) : Bool :=
  p.size == q.size && (p.slots.zip q.slots).all fun (s, t) => s.same t

end Parameters

end StoreQuery

import StoreQuery.Query.Forming

/-! # Entities and pairs

A record of an entity is a row of named values in the order in which they were added. A record of a
bucket is a key and a value.
-/

namespace StoreQuery

structure Element where
  name : String
  value : Value

def Element.toJson (e : Element) : Json :=
  .object [("name", .text e.name), ("value", e.value.toJson)]

structure Entity where
  name : String
  elements : List Element

namespace Entity

def ofName (name : String) : Entity := ⟨name, []⟩

/-- Elements with one more at the end, or with another value where the name already stands. -/
def setIn (name : String) (value : Value) : List Element → List Element
  | [] => [⟨name, value⟩]
  | e :: es => if e.name = name then ⟨name, value⟩ :: es else e :: setIn name value es

def insert (e : Entity) (name : String) (value : Value) : Entity :=
  ⟨e.name, setIn name value e.elements⟩

/-- A value is put at the end, even if its name already stands. -/
def push (e : Entity) (name : String) (value : Value) : Entity :=
  ⟨e.name, e.elements ++ [⟨name, value⟩]⟩

def get? (e : Entity) (name : String) : Option Value :=
  (e.elements.find? (·.name == name)).map Element.value

def size (e : Entity) : Nat :=
  e.elements.length

def isEmpty (e : Entity) : Bool :=
  e.elements.isEmpty

def ofJson (name : String) : Json → Except QueryError Entity
  | .object members =>
    .ok (members.foldl (fun e (key, j) => e.insert key (.ofJson j)) (ofName name))
  | _ => .error (.meaning .payloadNoObject)

def assign (e : Entity) : Condition → Except QueryError Entity
  | .compare name .equal operand => do
    let v ← operand.read
    return e.insert name v
  | c => .error (.meaning (.noAssignment c))

def ofAssignments (name : String) (conditions : List Condition) : Except QueryError Entity :=
  conditions.foldlM assign (ofName name)

def toJson (e : Entity) : Json :=
  .ofMembers (e.elements.map fun x => (x.name, x.value.toJson))

/-- The record as a document: its name, and its elements one by one. -/
def describe (e : Entity) : Json :=
  .object [("name", .text e.name), ("elements", .array (e.elements.map Element.toJson))]

def same (d e : Entity) : Bool :=
  d.name == e.name && d.size == e.size &&
    (d.elements.zip e.elements).all fun (x, y) => x.name == y.name && x.value.same y.value

end Entity

structure Pair where
  key : Value
  value : Value

def Pair.toJson (p : Pair) : Json :=
  .object [("key", p.key.toJson), ("value", p.value.toJson)]

end StoreQuery

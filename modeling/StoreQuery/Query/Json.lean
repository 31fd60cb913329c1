import StoreQuery.Query.Statement

/-! # Statements as documents

The document of a statement names every part of it. Members stand in a fixed order, an alternative
is named by a member in front of its parts, and what a statement does not give is null or an empty
list.
-/

namespace StoreQuery

def Comparison.tag : Comparison → String
  | equal => "equals"
  | greater => "greater_than"
  | greaterOrEqual => "greater_equals_than"
  | less => "lesser_than"
  | lessOrEqual => "lesser_equals_than"
  | like => "like"

namespace Json

def ofOption {α : Type} (toJson : α → Json) : Option α → Json
  | some a => toJson a
  | none => null

def tagged (tag : String) (value : Json) : Json :=
  object [("type", text tag), ("value", value)]

def variant (tag : String) (members : List (String × Json)) : Json :=
  object (("type", text tag) :: members)

end Json

def SortKey.toJson (s : SortKey) : Json :=
  .object [("name", .text s.name), ("direction", .text s.direction.word)]

def Lifetime.toJson (t : Lifetime) : Json :=
  .object [("secs", .ofUInt64 t.seconds), ("nanos", .ofUInt64 (UInt64.ofNat t.nanos))]

mutual

def Operand.toJson : Operand → Json
  | .literal v => .tagged "literal" v.toJson
  | .parameter n => .tagged "parameter" (.text n)
  | .document j => .tagged "json" j
  | .list items => .tagged "array" (.array (Operand.itemsToJson items))
  | .nested s => .tagged "statement" (.object s.members)

def Operand.itemsToJson : List Operand → List Json
  | [] => []
  | x :: xs => x.toJson :: Operand.itemsToJson xs

def Condition.toJson : Condition → Json
  | .compare n c v =>
    .variant "compare" [("name", .text n), ("operator", .text c.tag), ("value", v.toJson)]
  | .within n v => .variant "in" [("name", .text n), ("values", v.toJson)]
  | .between n low high =>
    .variant "between" [("name", .text n), ("low", low.toJson), ("high", high.toJson)]
  | .all cs => .variant "and" [("conditions", .array (Condition.itemsToJson cs))]
  | .any cs => .variant "or" [("conditions", .array (Condition.itemsToJson cs))]
  | .not c => .variant "not" [("condition", c.toJson)]

def Condition.itemsToJson : List Condition → List Json
  | [] => []
  | c :: cs => c.toJson :: Condition.itemsToJson cs

def Condition.clauseToJson : Option Condition → Json
  | none => .null
  | some c => c.toJson

def Select.members : Select → List (String × Json)
  | ⟨entity, fields, condition, sorts, skip, limit⟩ =>
    [("entity", .text entity),
     ("fields", .array (fields.map .text)),
     ("condition", Condition.clauseToJson condition),
     ("sorts", .array (sorts.map SortKey.toJson)),
     ("skip", .ofUInt64 skip),
     ("limit", .ofUInt64 limit)]

end

def Payload.toJson : Payload → Json
  | assignments conditions => .tagged "conditions" (.array (Condition.itemsToJson conditions))
  | document v => .tagged "json" v.toJson

namespace Statement

def members : Statement → List (String × Json)
  | select s => s.members
  | insert s =>
    [("entity", .text s.entity), ("payload", s.payload.toJson),
     ("ttl", .ofOption Lifetime.toJson s.ttl)]
  | update s => [("entity", .text s.entity), ("payload", s.payload.toJson)]
  | delete s =>
    [("entity", .text s.entity), ("fields", .array (s.fields.map .text)),
     ("condition", Condition.clauseToJson s.condition)]
  | get keys => [("keys", .array (Operand.itemsToJson keys))]
  | put s =>
    [("key", s.key.toJson), ("value", s.value.toJson), ("ttl", .ofOption Lifetime.toJson s.ttl)]
  | del keys => [("keys", .array (Operand.itemsToJson keys))]

/-- A statement as a document: its kind and its parts. -/
def toJson (s : Statement) : Json :=
  .object (("statement", .text s.kind.word) :: s.members)

end Statement

end StoreQuery

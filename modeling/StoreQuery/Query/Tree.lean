import StoreQuery.Entity
import StoreQuery.Tree

/-! # Statements and values as trees

The tree of a statement names every alternative and every part. Documents keep the braces and
brackets that they have as text, with their scalars named.
-/

namespace StoreQuery

mutual

def Json.toTree : Json → Tree
  | .null => .leaf "Null"
  | .bool b => .leaf ("Bool(" ++ toString b ++ ")")
  | .number n => .leaf ("Number(" ++ n.write ++ ")")
  | .text s => .leaf ("String(" ++ Text.shown s ++ ")")
  | .array items => .node "Array " .square (Json.itemsToTree items)
  | .object members => .node "Object " .curly (Json.membersToTree members)

def Json.itemsToTree : List Json → List (String × Tree)
  | [] => []
  | j :: js => ("", j.toTree) :: Json.itemsToTree js

def Json.membersToTree : List (String × Json) → List (String × Tree)
  | [] => []
  | (key, j) :: members => (Text.shown key ++ ": ", j.toTree) :: Json.membersToTree members

end

mutual

def Value.toTree : Value → Tree
  | .null => .leaf "Null"
  | .bool b => .wrap "Bool" (.leaf (toString b))
  | .int n => .wrap "Int" (.leaf (toString n.toInt))
  | .float x => .wrap "Float" (.leaf (String.ofList (Number.Layout.query.write x)))
  | .text s => .wrap "Text" (.ofText s)
  | .json document => .wrap "Json" document.toTree
  | .array items => .wrap "Array" (.node "" .square (Value.itemsToTree items))

def Value.itemsToTree : List Value → List (String × Tree)
  | [] => []
  | v :: vs => ("", v.toTree) :: Value.itemsToTree vs

end

def Comparison.constructorName : Comparison → String
  | equal => "Equals"
  | greater => "GreaterThan"
  | greaterOrEqual => "GreaterEqualsThan"
  | less => "LesserThan"
  | lessOrEqual => "LesserEqualsThan"
  | like => "Like"

def Direction.toTree : Direction → Tree
  | asc => .leaf "Asc"
  | desc => .leaf "Desc"

def SortKey.toTree (s : SortKey) : Tree :=
  .record "Sort" [("name", .ofText s.name), ("direction", s.direction.toTree)]

mutual

def Operand.toTree : Operand → Tree
  | .literal v => .wrap "Literal" v.toTree
  | .parameter n => .wrap "Parameter" (.ofText n)
  | .document j => .wrap "Json" j.toTree
  | .list items => .wrap "Array" (.node "" .square (Operand.itemsToTree items))
  | .nested s => .wrap "Statement" s.toTree

def Operand.itemsToTree : List Operand → List (String × Tree)
  | [] => []
  | x :: xs => ("", x.toTree) :: Operand.itemsToTree xs

def Condition.toTree : Condition → Tree
  | .compare n c v =>
    .record "Compare"
      [("name", .ofText n), ("operator", .leaf c.constructorName), ("value", v.toTree)]
  | .within n v => .record "In" [("name", .ofText n), ("values", v.toTree)]
  | .between n low high =>
    .record "Between" [("name", .ofText n), ("low", low.toTree), ("high", high.toTree)]
  | .all cs => .record "And" [("conditions", .node "" .square (Condition.itemsToTree cs))]
  | .any cs => .record "Or" [("conditions", .node "" .square (Condition.itemsToTree cs))]
  | .not c => .record "Not" [("condition", c.toTree)]

def Condition.itemsToTree : List Condition → List (String × Tree)
  | [] => []
  | c :: cs => ("", c.toTree) :: Condition.itemsToTree cs

def Condition.clauseToTree : Option Condition → Tree
  | none => .leaf "None"
  | some c => .wrap "Some" c.toTree

def Select.toTree : Select → Tree
  | ⟨entity, fields, condition, sorts, skip, limit⟩ =>
    .record "SelectStatement"
      [("entity", .ofText entity),
       ("fields", .list (fields.map .ofText)),
       ("condition", Condition.clauseToTree condition),
       ("sorts", .list (sorts.map SortKey.toTree)),
       ("skip", .ofNat skip.toNat),
       ("limit", .ofNat limit.toNat)]

end

def Payload.toTree : Payload → Tree
  | assignments conditions =>
    .wrap "Conditions" (.node "" .square (Condition.itemsToTree conditions))
  | document v => .wrap "Json" v.toTree

def Lifetime.toTree (t : Lifetime) : Tree :=
  .leaf t.shown

namespace Statement

def toTree : Statement → Tree
  | select s => .wrap "Select" s.toTree
  | insert s =>
    .wrap "Insert" <| .record "InsertStatement"
      [("entity", .ofText s.entity), ("payload", s.payload.toTree),
       ("ttl", .ofOption Lifetime.toTree s.ttl)]
  | update s =>
    .wrap "Update" <| .record "UpdateStatement"
      [("entity", .ofText s.entity), ("payload", s.payload.toTree)]
  | delete s =>
    .wrap "Delete" <| .record "DeleteStatement"
      [("entity", .ofText s.entity), ("fields", .list (s.fields.map .ofText)),
       ("condition", Condition.clauseToTree s.condition)]
  | get keys =>
    .wrap "Get" <| .record "GetStatement"
      [("keys", .node "" .square (Operand.itemsToTree keys))]
  | put s =>
    .wrap "Put" <| .record "PutStatement"
      [("key", s.key.toTree), ("value", s.value.toTree), ("ttl", .ofOption Lifetime.toTree s.ttl)]
  | del keys =>
    .wrap "Del" <| .record "DelStatement"
      [("keys", .node "" .square (Operand.itemsToTree keys))]

end Statement

def Element.toTree (e : Element) : Tree :=
  .record "Element" [("name", .ofText e.name), ("value", e.value.toTree)]

def Entity.toTree (e : Entity) : Tree :=
  .record "Entity" [("name", .ofText e.name), ("elements", .list (e.elements.map Element.toTree))]

end StoreQuery

import StoreQuery.Parameters
import StoreQuery.Query.Forming

/-! # Binding

A statement mentions parameters by name. Binding puts the value of each in its place, in the shape
that query text would give the value; the first parameter without a value, in the order of the text,
is the error.
-/

namespace StoreQuery

mutual

/-- The parameters that an operand mentions, as often as it does. -/
def Operand.mentions : Operand → List String
  | .literal _ | .document _ => []
  | .parameter n => [n]
  | .list items => Operand.mentionsOfItems items
  | .nested s => s.mentions

def Operand.mentionsOfItems : List Operand → List String
  | [] => []
  | x :: xs => x.mentions ++ Operand.mentionsOfItems xs

def Condition.mentions : Condition → List String
  | .compare _ _ v => v.mentions
  | .within _ v => v.mentions
  | .between _ low high => low.mentions ++ high.mentions
  | .all cs | .any cs => Condition.mentionsOfItems cs
  | .not c => c.mentions

def Condition.mentionsOfItems : List Condition → List String
  | [] => []
  | c :: cs => c.mentions ++ Condition.mentionsOfItems cs

def Condition.mentionsOfClause : Option Condition → List String
  | none => []
  | some c => c.mentions

def Select.mentions : Select → List String
  | ⟨_, _, condition, _, _, _⟩ => Condition.mentionsOfClause condition

end

def Payload.mentions : Payload → List String
  | assignments conditions => Condition.mentionsOfItems conditions
  | document v => v.mentions

/-- The names of a list, each where it first stands. -/
def distinct (names : List String) : List String :=
  names.foldl (fun seen n => if n ∈ seen then seen else seen ++ [n]) []

namespace Statement

def mentions : Statement → List String
  | select s => s.mentions
  | insert s => s.payload.mentions
  | update s => s.payload.mentions
  | delete s => Condition.mentionsOfClause s.condition
  | get keys | del keys => Operand.mentionsOfItems keys
  | put s => s.key.mentions ++ s.value.mentions

/-- The parameters that a statement mentions, each once. -/
def parameters (s : Statement) : List String :=
  distinct s.mentions

end Statement

section Bind

variable (p : Parameters)

mutual

/-- An operand with the values of its parameters. -/
def Operand.bind : Operand → Except QueryError Operand
  | .literal v => .ok (.literal v)
  | .document j => .ok (.document j)
  | .parameter n => do
    let v ← p.value n
    return .ofValue v
  | .list items => do
    let bound ← Operand.bindItems items
    return .list bound
  | .nested s => do
    let bound ← s.bind
    return .nested bound

def Operand.bindItems : List Operand → Except QueryError (List Operand)
  | [] => .ok []
  | x :: xs => do
    let y ← x.bind
    let ys ← Operand.bindItems xs
    return y :: ys

/-- A condition with the values of its parameters. The values of an `in` are looked at again, since
a parameter may stand for them. -/
def Condition.bind : Condition → Except QueryError Condition
  | .compare n c v => do
    let w ← v.bind
    return .compare n c w
  | .within n v => do
    let w ← v.bind
    Condition.withinOf n w
  | .between n low high => do
    let l ← low.bind
    let h ← high.bind
    return .between n l h
  | .all cs => do
    let ds ← Condition.bindItems cs
    return .all ds
  | .any cs => do
    let ds ← Condition.bindItems cs
    return .any ds
  | .not c => do
    let d ← c.bind
    return .not d

def Condition.bindItems : List Condition → Except QueryError (List Condition)
  | [] => .ok []
  | c :: cs => do
    let d ← c.bind
    let ds ← Condition.bindItems cs
    return d :: ds

def Condition.bindClause : Option Condition → Except QueryError (Option Condition)
  | none => .ok none
  | some c => do
    let d ← c.bind
    return some d

def Select.bind : Select → Except QueryError Select
  | ⟨entity, fields, condition, sorts, skip, limit⟩ => do
    let bound ← Condition.bindClause condition
    return ⟨entity, fields, bound, sorts, skip, limit⟩

end

def Payload.bind : Payload → Except QueryError Payload
  | .assignments conditions => do
    let bound ← Condition.bindItems p conditions
    return .assignments bound
  | .document v => do
    let bound ← v.bind p
    return .document bound

def Statement.bind : Statement → Except QueryError Statement
  | .select s => do
    let bound ← s.bind p
    return .select bound
  | .insert s => do
    let payload ← s.payload.bind p
    return .insert { s with payload }
  | .update s => do
    let payload ← s.payload.bind p
    return .update { s with payload }
  | .delete s => do
    let condition ← Condition.bindClause p s.condition
    return .delete { s with condition }
  | .get keys => do
    let bound ← Operand.bindItems p keys
    return .get bound
  | .put s => do
    let key ← s.key.bind p
    let value ← s.value.bind p
    return .put { s with key, value }
  | .del keys => do
    let bound ← Operand.bindItems p keys
    return .del bound

end Bind

end StoreQuery

import StoreQuery.Query.Condition
import StoreQuery.Query.Lifetime

/-! # Statements

Four kinds of statements are for records of entities (`select`, `insert`, `update`, `delete`), three
for keys and their values (`get`, `put`, `del`).
-/

namespace StoreQuery

inductive Payload where
  | assignments (conditions : List Condition)
  | document (operand : Operand)

structure Insert where
  entity : String
  payload : Payload
  ttl : Option Lifetime

structure Update where
  entity : String
  payload : Payload

/-- A removal of records, or of some of their fields. Without a condition every record is meant. -/
structure Delete where
  entity : String
  fields : List String
  condition : Option Condition

structure Put where
  key : Operand
  value : Operand
  ttl : Option Lifetime

inductive Statement where
  | select (s : Select)
  | insert (s : Insert)
  | update (s : Update)
  | delete (s : Delete)
  | get (keys : List Operand)
  | put (s : Put)
  | del (keys : List Operand)

inductive StatementKind where
  | select
  | insert
  | update
  | delete
  | get
  | put
  | del
  deriving DecidableEq, Repr

namespace StatementKind

def word : StatementKind → String
  | select => "select"
  | insert => "insert"
  | update => "update"
  | delete => "delete"
  | get => "get"
  | put => "put"
  | del => "del"

def all : List StatementKind :=
  [select, insert, update, delete, get, put, del]

def isKeyed : StatementKind → Bool
  | get | put | del => true
  | _ => false

end StatementKind

namespace Statement

def kind : Statement → StatementKind
  | select _ => .select
  | insert _ => .insert
  | update _ => .update
  | delete _ => .delete
  | get _ => .get
  | put _ => .put
  | del _ => .del

def isKeyed (s : Statement) : Bool :=
  s.kind.isKeyed

def condition? : Statement → Option Condition
  | select s => s.condition
  | delete s => s.condition
  | _ => none

end Statement

def Payload.same : Payload → Payload → Bool
  | assignments cs, assignments ds => Condition.sameItems cs ds
  | document v, document w => v.same w
  | _, _ => false

def Statement.same : Statement → Statement → Bool
  | select s, select t => s.same t
  | insert s, insert t => s.entity == t.entity && s.payload.same t.payload && s.ttl == t.ttl
  | update s, update t => s.entity == t.entity && s.payload.same t.payload
  | delete s, delete t =>
    s.entity == t.entity && s.fields == t.fields && Condition.same? s.condition t.condition
  | get xs, get ys => Operand.sameItems xs ys
  | put s, put t => s.key.same t.key && s.value.same t.value && s.ttl == t.ttl
  | del xs, del ys => Operand.sameItems xs ys
  | _, _ => false

end StoreQuery

import StoreQuery.Query.Binding
import StoreQuery.Store.Basic

/-! # Executing statements

A statement is first turned into a call: it must be of a kind that the store serves, the store must
support what the statement requires, every parameter must have a value, and what is written or
looked up must be readable. Only then the store acts, once.
-/

namespace StoreQuery

inductive DatabaseCall where
  | insert (record : Entity) (ttl : Option Lifetime)
  | update (record : Entity)
  | delete (s : Delete)
  | select (s : Select)

inductive BucketCall where
  | put (pair : Pair) (ttl : Option Lifetime)
  | get (keys : List Value)
  | delete (keys : List Value)

/-- The record that a payload describes. -/
def Payload.record (entity : String) : Payload → Except QueryError Entity
  | assignments conditions => Entity.ofAssignments entity conditions
  | document v => do
    let v ← v.read
    Entity.ofJson entity v.toJson

namespace Statement

/-- The first feature that a statement requires and a store does not support. -/
def missing? (s : Statement) (c : Capabilities) : Option Capability :=
  s.requires.find? fun feature => !c.supports feature

/-- A statement with its values, if a store of the given features can execute it. -/
def prepareFor (keyed : Bool) (c : Capabilities) (s : Statement) (p : Parameters) :
    Except QueryError Statement :=
  if s.isKeyed != keyed then .error (.unsupported (.statements s.kind))
  else
    match s.missing? c with
    | some feature => .error (.unsupported feature)
    | none => s.bind p

/-- The call of a database that a statement is. -/
def databaseCall (c : Capabilities) (s : Statement) (p : Parameters) :
    Except QueryError DatabaseCall := do
  match ← s.prepareFor false c p with
  | select s => return .select s
  | insert s =>
    let record ← s.payload.record s.entity
    return .insert record s.ttl
  | update s =>
    let record ← s.payload.record s.entity
    return .update record
  | delete s => return .delete s
  | other => .error (.unsupported (.statements other.kind))

def bucketCall (c : Capabilities) (s : Statement) (p : Parameters) :
    Except QueryError BucketCall := do
  match ← s.prepareFor true c p with
  | get keys =>
    let keys ← Operand.readItems keys
    return .get keys
  | put s =>
    let key ← s.key.read
    let value ← s.value.read
    return .put ⟨key, value⟩ s.ttl
  | del keys =>
    let keys ← Operand.readItems keys
    return .delete keys
  | other => .error (.unsupported (.statements other.kind))

end Statement

def Outcome.ofAnswer {σ α β : Type} (outcome : α → Outcome β) :
    Except String α × σ → Except QueryError (Outcome β) × σ
  | (.ok a, after) => (.ok (outcome a), after)
  | (.error message, after) => (.error (.store message), after)

namespace Database

variable {σ : Type} (db : Database σ)

def perform : DatabaseCall → σ → Except QueryError (Outcome Entity) × σ
  | .insert record ttl, st => Outcome.ofAnswer .echo (db.insert record ttl st)
  | .update record, st => Outcome.ofAnswer .echo (db.update record st)
  | .delete s, st =>
    Outcome.ofAnswer
      (fun
        | some n => .count n
        | none => .done)
      (db.delete s st)
  | .select s, st => Outcome.ofAnswer .stream (db.select s st)

/-- A statement is executed: it becomes at most one call. -/
def execute (s : Statement) (p : Parameters) (st : σ) :
    Except QueryError (Outcome Entity) × σ :=
  match s.databaseCall db.capabilities p with
  | .ok call => db.perform call st
  | .error e => (.error e, st)

end Database

namespace Bucket

variable {σ : Type} (b : Bucket σ)

/-- A call is carried out. A value that was put is echoed. -/
def perform : BucketCall → σ → Except QueryError (Outcome Value) × σ
  | .put pair ttl, st => Outcome.ofAnswer (fun _ => .echo pair.value) (b.put pair ttl st)
  | .get keys, st => Outcome.ofAnswer .stream (b.get keys st)
  | .delete keys, st => Outcome.ofAnswer (fun _ => .done) (b.delete keys st)

def execute (s : Statement) (p : Parameters) (st : σ) : Except QueryError (Outcome Value) × σ :=
  match s.bucketCall b.capabilities p with
  | .ok call => b.perform call st
  | .error e => (.error e, st)

end Bucket

end StoreQuery

import StoreQuery.Store.Dispatch

/-! # Writing records

A record is written as a statement with one assignment for each of its values, so that everything
that holds for statements holds for records too.
-/

namespace StoreQuery

/-- The assignments that write a record. It must name its entity and have a value. -/
def Entity.payload (e : Entity) : Except QueryError Payload :=
  if e.name.isEmpty then .error (.argument .recordWithoutEntity)
  else if e.isEmpty then .error (.argument (.recordWithoutFields e.name))
  else
    .ok <| .assignments <| e.elements.map fun x =>
      .compare x.name .equal (.ofValue x.value)

def Outcome.echoed (r : Outcome Entity) : Except QueryError Entity := do
  match ← r.single? with
  | some e => return e
  | none => .error (.meaning .noEcho)

namespace Database

variable {σ : Type} (db : Database σ)

/-- A statement without parameters is executed, and the echo of the store returned. -/
def write (s : Statement) (st : σ) : Except QueryError Entity × σ :=
  let (answer, after) := db.execute s .empty st
  (answer >>= Outcome.echoed, after)

def insertRecord (e : Entity) (ttl : Option Lifetime) (st : σ) : Except QueryError Entity × σ :=
  match e.payload with
  | .ok payload => db.write (.insert ⟨e.name, payload, ttl⟩) st
  | .error err => (.error err, st)

def updateRecord (e : Entity) (st : σ) : Except QueryError Entity × σ :=
  match e.payload with
  | .ok payload => db.write (.update ⟨e.name, payload⟩) st
  | .error err => (.error err, st)

end Database

end StoreQuery

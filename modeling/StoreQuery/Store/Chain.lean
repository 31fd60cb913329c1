import StoreQuery.Query.Chain
import StoreQuery.Store.Prepared

/-! # Executing chains

A chain can be prepared or executed without a statement in between. A chain that is executed at once
gives its parameters no values.
-/

namespace StoreQuery

namespace Chain

def prepare (c : Chain) : Except QueryError Prepared := do
  let s ← c.build
  return Prepared.ofStatement s

def execute {σ : Type} (db : Database σ) (c : Chain) (st : σ) :
    Except QueryError (Outcome Entity) × σ :=
  match c.build with
  | .ok s => db.execute s .empty st
  | .error e => (.error e, st)

end Chain

end StoreQuery

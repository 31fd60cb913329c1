import StoreQuery.Entity
import StoreQuery.Store.Outcome

/-! # Stores

A database keeps records of entities, a bucket keeps pairs. A store is given by what it does to a
state of its own; each of its actions answers or fails with a message, and leaves a state.
-/

namespace StoreQuery

abbrev Action (σ α : Type) := σ → Except String α × σ

structure Database (σ : Type) where
  name : String
  capabilities : Capabilities
  insert : Entity → Option Lifetime → Action σ Entity
  update : Entity → Action σ Entity
  /-- The number of records that were affected, if the store knows it. -/
  delete : Delete → Action σ (Option UInt64)
  select : Select → Action σ (List (Except String Entity))

structure Bucket (σ : Type) where
  name : String
  capabilities : Capabilities
  put : Pair → Option Lifetime → Action σ Unit
  /-- The values of those keys that have one. -/
  get : List Value → Action σ (List (Except String Value))
  delete : List Value → Action σ Unit

end StoreQuery

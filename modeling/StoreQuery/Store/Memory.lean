import StoreQuery.Store.Basic
import StoreQuery.Store.Matching

/-! # Stores in memory

A database and a bucket that keep what is written to them, in the order of writing, and a record of
every call.
-/

namespace StoreQuery

namespace Memory

structure Records where
  entities : List Entity
  calls : List String

def Records.empty : Records := ⟨[], []⟩

structure Entries where
  pairs : List Pair
  calls : List String

def Entries.empty : Entries := ⟨[], []⟩

def showTtl : Option Lifetime → String
  | some t => "Some(" ++ t.shown ++ ")"
  | none => "None"

def showKeys (keys : List Value) : String :=
  ", ".intercalate (keys.map Value.render)

/-- The part of some items that a skip and a limit leave; the limit 0 means no limit. -/
def page {α : Type} (skip limit : UInt64) (items : List α) : List α :=
  let rest := items.drop skip.toNat
  if limit = 0 then rest else rest.take limit.toNat

/-- A database that keeps its records in memory. An update is recorded and echoed, but changes no
record. -/
def database (name : String) (capabilities : Capabilities) : Database Records where
  name := name
  capabilities := capabilities
  insert e ttl st :=
    (.ok e, ⟨st.entities ++ [e],
      st.calls ++ ["insert " ++ e.toJson.compact ++ " " ++ showTtl ttl]⟩)
  update e st := (.ok e, { st with calls := st.calls ++ ["update " ++ e.toJson.compact] })
  delete s st :=
    let kept := st.entities.filter fun e => !e.isMeant s.entity s.condition
    (.ok (some (UInt64.ofNat (st.entities.length - kept.length))),
      ⟨kept, st.calls ++ ["delete " ++ s.render]⟩)
  select s st :=
    let found := st.entities.filter fun e => e.isMeant s.entity s.condition
    (.ok ((page s.skip s.limit found).map .ok),
      { st with calls := st.calls ++ ["select " ++ s.render] })

/-- A bucket that keeps its pairs in memory. A pair that is put stands last, and no other pair has
its key. -/
def bucket (name : String) (capabilities : Capabilities) : Bucket Entries where
  name := name
  capabilities := capabilities
  put pair ttl st :=
    (.ok (), ⟨st.pairs.filter (fun p => !p.key.same pair.key) ++ [pair],
      st.calls ++
        ["put(" ++ pair.key.render ++ ", " ++ pair.value.render ++ ", " ++ showTtl ttl ++ ")"]⟩)
  get keys st :=
    let found := keys.filterMap fun key => st.pairs.find? (·.key.same key)
    (.ok (found.map fun p => .ok p.value),
      { st with calls := st.calls ++ ["get([" ++ showKeys keys ++ "])"] })
  delete keys st :=
    (.ok (), ⟨st.pairs.filter (fun p => !keys.any (·.same p.key)),
      st.calls ++ ["delete([" ++ showKeys keys ++ "])"]⟩)

end Memory

end StoreQuery

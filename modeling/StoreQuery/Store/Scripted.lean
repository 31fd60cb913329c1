import StoreQuery.Store.Basic

/-! # Scripted stores

A scripted store answers every call of one kind in the same way and keeps nothing.
-/

namespace StoreQuery

/-- What a store answers. A missing message means success, and a record is then echoed. -/
structure Script where
  select : Except String (List (Except String Entity))
  get : Except String (List (Except String Value))
  insert : Option String
  update : Option String
  put : Option String
  del : Option String
  delete : Except String (Option UInt64)

namespace Script

def reply {α : Type} (a : α) : Option String → Except String α
  | some message => .error message
  | none => .ok a

def database (s : Script) : Database Unit where
  name := "scripted"
  capabilities := .usual
  insert e _ st := (reply e s.insert, st)
  update e st := (reply e s.update, st)
  delete _ st := (s.delete, st)
  select _ st := (s.select, st)

def bucket (s : Script) : Bucket Unit where
  name := "scripted"
  capabilities := .usual
  put _ _ st := (reply () s.put, st)
  get _ st := (s.get, st)
  delete _ st := (reply () s.del, st)

end Script

end StoreQuery

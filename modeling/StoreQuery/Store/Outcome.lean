import StoreQuery.Error
import StoreQuery.Tree

/-! # Outcomes

A statement that is executed gives a stream of records, a count, the record that it wrote, or
nothing. A stream may hold errors of the store between its records. An outcome is read as a stream,
as a list of all records, or as at most one record.
-/

namespace StoreQuery

inductive Outcome (α : Type) where
  | stream (items : List (Except String α))
  | count (n : UInt64)
  | echo (record : α)
  | done

namespace Outcome

variable {α β : Type}

/-- Items in order, or the first error among them. -/
def collect : List (Except String α) → Except QueryError (List α)
  | [] => .ok []
  | .error message :: _ => .error (.store message)
  | .ok a :: items =>
    match collect items with
    | .ok as => .ok (a :: as)
    | .error e => .error e

def toStream : Outcome α → List (Except String α)
  | stream items => items
  | echo record => [.ok record]
  | count _ | done => []

/-- Every record, or the first error. -/
def toList (r : Outcome α) : Except QueryError (List α) :=
  collect r.toStream

/-- At most one record. Only the first two items of a stream are looked at. -/
def single? : Outcome α → Except QueryError (Option α)
  | stream [] => .ok none
  | stream (.error message :: _) => .error (.store message)
  | stream [.ok a] => .ok (some a)
  | stream (.ok _ :: .ok _ :: _) => .error .notUnique
  | stream (.ok _ :: .error message :: _) => .error (.store message)
  | echo record => .ok (some record)
  | count _ | done => .ok none

def count? : Outcome α → Option UInt64
  | count n => some n
  | _ => none

def isDone : Outcome α → Bool
  | done => true
  | _ => false

def toListAs (read : α → Except QueryError β) (r : Outcome α) : Except QueryError (List β) := do
  (← r.toList).mapM read

def singleAs? (read : α → Except QueryError β) (r : Outcome α) :
    Except QueryError (Option β) := do
  match ← r.single? with
  | some a => some <$> read a
  | none => return none

/-- The tree of an outcome; the items of a stream are not shown. -/
def toTree (recordToTree : α → Tree) : Outcome α → Tree
  | stream _ => .leaf "Stream(..)"
  | count n => .wrap "Count" (.ofNat n.toNat)
  | echo record => .wrap "Echo" (recordToTree record)
  | done => .leaf "Done"

end Outcome

end StoreQuery

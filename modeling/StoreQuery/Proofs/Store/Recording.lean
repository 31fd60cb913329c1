import StoreQuery.Store.Dispatch

/-! # Stores that keep their calls

A recorded store acts as the store that it stands for and adds every call to a list. Since nothing
is known to the execution of a statement but the actions of a store, the list tells what any store
is asked to do.
-/

namespace StoreQuery

variable {σ κ α β : Type}

def Action.recorded (call : κ) (act : Action σ α) : Action (σ × List κ) α :=
  fun (st, calls) => ((act st).1, (act st).2, calls ++ [call])

/-- The database with the list of its calls. -/
def Database.recorded (db : Database σ) : Database (σ × List DatabaseCall) where
  name := db.name
  capabilities := db.capabilities
  insert record ttl := (db.insert record ttl).recorded (.insert record ttl)
  update record := (db.update record).recorded (.update record)
  delete s := (db.delete s).recorded (.delete s)
  select s := (db.select s).recorded (.select s)

def Bucket.recorded (b : Bucket σ) : Bucket (σ × List BucketCall) where
  name := b.name
  capabilities := b.capabilities
  put pair ttl := (b.put pair ttl).recorded (.put pair ttl)
  get keys := (b.get keys).recorded (.get keys)
  delete keys := (b.delete keys).recorded (.delete keys)

/-- An execution that consists of one call, if it has got as far as that. -/
def atMostOneCall (perform : κ → Except QueryError (Outcome β) × σ) (st : σ) (calls : List κ) :
    Except QueryError κ → Except QueryError (Outcome β) × σ × List κ
  | .ok call => ((perform call).1, (perform call).2, calls ++ [call])
  | .error e => (.error e, st, calls)

/-- What a store answers, as the result of an execution. -/
def Outcome.mirror (outcome : α → Outcome β) : Except String α → Except QueryError (Outcome β)
  | .ok a => .ok (outcome a)
  | .error message => .error (.store message)

theorem Outcome.mirror_eq_error {outcome : α → Outcome β} {answer : Except String α}
    {e : QueryError} (h : Outcome.mirror outcome answer = .error e) :
    ∃ message, e = .store message := by
  cases answer with
  | ok a => cases h
  | error message =>
    cases h
    exact ⟨message, rfl⟩

theorem Outcome.ofAnswer_eq (outcome : α → Outcome β) (answer : Except String α × σ) :
    Outcome.ofAnswer outcome answer = (Outcome.mirror outcome answer.1, answer.2) := by
  obtain ⟨_ | _, _⟩ := answer <;> rfl

section Recorded

variable {st : σ} {s : Statement} {p : Parameters}

theorem Database.perform_recorded (db : Database σ) (call : DatabaseCall)
    (calls : List DatabaseCall) :
    db.recorded.perform call (st, calls) =
      ((db.perform call st).1, (db.perform call st).2, calls ++ [call]) := by
  cases call <;> simp only [perform, Outcome.ofAnswer_eq, recorded, Action.recorded]

theorem Bucket.perform_recorded (b : Bucket σ) (call : BucketCall) (calls : List BucketCall) :
    b.recorded.perform call (st, calls) =
      ((b.perform call st).1, (b.perform call st).2, calls ++ [call]) := by
  cases call <;> simp only [perform, Outcome.ofAnswer_eq, recorded, Action.recorded]

theorem Database.execute_recorded (db : Database σ) (calls : List DatabaseCall) :
    db.recorded.execute s p (st, calls) =
      atMostOneCall (fun call => db.perform call st) st calls
        (s.databaseCall db.capabilities p) := by
  simp only [execute, recorded]
  cases s.databaseCall db.capabilities p with
  | ok call => exact db.perform_recorded call calls
  | error e => rfl

theorem Bucket.execute_recorded (b : Bucket σ) (calls : List BucketCall) :
    b.recorded.execute s p (st, calls) =
      atMostOneCall (fun call => b.perform call st) st calls
        (s.bucketCall b.capabilities p) := by
  simp only [execute, recorded]
  cases s.bucketCall b.capabilities p with
  | ok call => exact b.perform_recorded call calls
  | error e => rfl

end Recorded

end StoreQuery

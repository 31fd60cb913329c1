import StoreQuery.Grammar.Statement
import StoreQuery.Store.Dispatch

/-! # Prepared statements

A prepared statement keeps the values of its parameters between executions. A reusable one may be
bound and executed any number of times; one for a single use takes each value once and is executed
once.
-/

namespace StoreQuery

inductive Stage where
  | parsed
  | bound
  | executed
  deriving DecidableEq, Repr

def Stage.name : Stage → String
  | parsed => "Parsed"
  | bound => "Bound"
  | executed => "Executed"

structure Prepared where
  statement : Statement
  parameters : Parameters
  reusable : Bool
  stage : Stage

namespace Prepared

def stageOf (p : Parameters) : Stage :=
  if p.unresolved.isEmpty then .bound else .parsed

def ofParts (s : Statement) (p : Parameters) : Prepared :=
  ⟨s, p, true, stageOf p⟩

def ofStatement (s : Statement) : Prepared :=
  ofParts s (.ofNames s.parameters)

/-- The statement of a text with the parameters that were met in it. -/
def ofText (text : String) : Except QueryError Prepared := do
  let reading := Grammar.parseStatement text
  let s ← reading.result
  return ofParts s (.ofNames reading.parameters)

def singleUse (s : Prepared) : Prepared :=
  { s with reusable := false }

/-- Whether a statement for a single use has been executed. -/
def isSpent (s : Prepared) : Bool :=
  !s.reusable && s.stage == .executed

/-- A parameter gets a value; for a single use it must not have one yet. -/
def supply (s : Prepared) (name : String) (value : Value) : Change Prepared :=
  if s.isSpent then (.error .alreadyExecuted, s)
  else
    match if s.reusable then s.parameters.replace name value
      else s.parameters.supply name value with
    | (.ok (), p) => (.ok (), { s with parameters := p, stage := stageOf p })
    | (.error e, p) => (.error e, { s with parameters := p })

def bind (s : Prepared) (name : String) (value : Value) : Except QueryError Prepared :=
  (s.supply name value).settled

/-- Whether the statement may be executed now. -/
def ready (s : Prepared) : Except QueryError Unit :=
  if s.isSpent then .error .alreadyExecuted else s.parameters.ensureResolved

/-- An execution of the statement by a store. Only one that succeeds changes the stage. -/
def executeBy {σ α : Type}
    (execute : Statement → Parameters → σ → Except QueryError (Outcome α) × σ) (s : Prepared)
    (st : σ) : Except QueryError (Outcome α) × Prepared × σ :=
  match s.ready with
  | .error e => (.error e, s, st)
  | .ok () =>
    match execute s.statement s.parameters st with
    | (.ok outcome, after) => (.ok outcome, { s with stage := .executed }, after)
    | (.error e, after) => (.error e, s, after)

def execute {σ : Type} (db : Database σ) : Prepared → σ →
    Except QueryError (Outcome Entity) × Prepared × σ :=
  executeBy db.execute

def executeKeyed {σ : Type} (b : Bucket σ) : Prepared → σ →
    Except QueryError (Outcome Value) × Prepared × σ :=
  executeBy b.execute

end Prepared

end StoreQuery

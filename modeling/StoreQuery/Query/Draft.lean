import StoreQuery.Parameters
import StoreQuery.Query.Call

/-! # Drafts of chains

While a chain is given call by call, a draft of it is kept: the conditions so far in their groups,
and the names that await a predicate or a direction. A draft takes every call. What is wrong with
an argument is recorded unless something was wrong before, and comes out when the statement is
built.
-/

namespace StoreQuery

/-- A test that awaits its predicate. -/
structure Pending where
  connective : Connective
  name : String
  negated : Bool

/-- The condition that a predicate makes of a test: its numbers must be finite. -/
def Pending.condition (t : Pending) (p : Predicate) : Except QueryError Condition := do
  let c ← p.condition t.name
  if !c.isFinite then .error (.argument .notFinite)
  else return if t.negated then .not c else c

structure ConditionDraft where
  groups : List (List Condition)
  pending : Option Pending

namespace ConditionDraft

def start (d : ConditionDraft) (o : Connective) (name : String) : ConditionDraft :=
  { d with pending := some ⟨o, name, false⟩ }

def negate (d : ConditionDraft) : ConditionDraft :=
  { d with pending := d.pending.map fun t => { t with negated := !t.negated } }

/-- A predicate completes the pending test. If it is refused, the test is gone all the same. -/
def complete (d : ConditionDraft) (p : Predicate) : Change ConditionDraft :=
  match d.pending with
  | none => (.error (.argument .noFieldPending), d)
  | some t =>
    match t.condition p with
    | .ok c => (.ok (), ⟨Condition.addToGroups d.groups (t.connective, c), none⟩)
    | .error e => (.error e, ⟨d.groups, none⟩)

end ConditionDraft

namespace ChainKind

def addSort (s : SortKey) : ChainKind → ChainKind
  | select sorts skip limit => select (sorts ++ [s]) skip limit
  | delete => delete

def withSkip (n : UInt64) : ChainKind → ChainKind
  | select sorts _ limit => select sorts n limit
  | delete => delete

def withLimit (n : UInt64) : ChainKind → ChainKind
  | select sorts skip _ => select sorts skip n
  | delete => delete

def assemble (entity : String) (fields : List String) (condition : Option Condition) :
    ChainKind → Statement
  | select sorts skip limit => .select ⟨entity, fields, condition, sorts, skip, limit⟩
  | delete => .delete ⟨entity, fields, condition⟩

end ChainKind

structure Draft where
  kind : ChainKind
  pendingSort : String
  entity : String
  fields : List String
  conditions : ConditionDraft
  error? : Option QueryError

namespace Draft

/-- An error is recorded unless an earlier one is. -/
def record (d : Draft) (result : Except QueryError Unit) : Draft :=
  { d with error? := d.error?.or (match result with | .ok () => none | .error e => some e) }

def ofFields (kind : ChainKind) (fields : List String) : Draft :=
  record ⟨kind, "", "", fields, ⟨[], none⟩, none⟩ <|
    if fields.any String.isEmpty then .error (.argument (.emptyName .projectedField)) else .ok ()

def startCondition (d : Draft) (o : Connective) (name : String) : Draft :=
  let d := d.record (checkName .conditionField name)
  { d with conditions := d.conditions.start o name }

/-- What a call does to a draft, whether or not its argument is valid. -/
def step (d : Draft) : Call → Draft
  | .entity name => { d.record (checkName .entity name) with entity := name }
  | .filter name | .and name => d.startCondition .and name
  | .or name => d.startCondition .or name
  | .not => { d with conditions := d.conditions.negate }
  | .predicate p =>
    let (result, conditions) := d.conditions.complete p
    { d with conditions }.record result
  | .orderBy name => { d.record (checkName .orderField name) with pendingSort := name }
  | .direction o => { d with kind := d.kind.addSort ⟨d.pendingSort, o⟩, pendingSort := "" }
  | .skip n => { d with kind := d.kind.withSkip n }
  | .limit n => { d with kind := d.kind.withLimit n }

def ofCalls (kind : ChainKind) (fields : List String) (calls : List Call) : Draft :=
  calls.foldl step (ofFields kind fields)

def build (d : Draft) : Except QueryError Statement :=
  match d.error? with
  | some e => .error e
  | none => .ok (d.kind.assemble d.entity d.fields (Condition.ofGroups d.conditions.groups))

end Draft

end StoreQuery

import StoreQuery.Query.Forming

/-! # Chains

A chain describes a select or a delete clause by clause, in the order in which the clauses stand in
query text: fields, entity, tests joined by `and` and `or`, order, skip and limit. Building the
statement looks at the clauses in that order, and the first one that is invalid is the error.
-/

namespace StoreQuery

inductive Connective where
  | and
  | or
  deriving DecidableEq, Repr

inductive Predicate where
  | compare (comparison : Comparison) (operand : Operand)
  | between (low high : Operand)
  | withinList (values : List Operand)
  | within (values : Operand)

structure Test where
  name : String
  negated : Bool
  predicate : Predicate

structure Filter where
  first : Test
  others : List (Connective × Test)

/-- What is built, with the clauses that only a select has. -/
inductive ChainKind where
  | select (sorts : List SortKey) (skip limit : UInt64)
  | delete

structure Chain where
  fields : List String
  entity : String
  filter : Option Filter
  kind : ChainKind

def checkName (role : NameRole) (name : String) : Except QueryError Unit :=
  if name.isEmpty then .error (.argument (.emptyName role)) else .ok ()

namespace Condition

def isFinite : Condition → Bool :=
  fold (fun _ _ v => v.isFinite) (fun _ v => v.isFinite)
    (fun _ low high => low.isFinite && high.isFinite) (·.all id) (·.all id) id

/-- Groups of conditions with one condition more: `and` adds it to the last group, and `or` opens a
new group. -/
def addToGroups (groups : List (List Condition)) :
    Connective × Condition → List (List Condition)
  | (.and, c) =>
    match groups.getLast? with
    | some group => groups.dropLast ++ [group ++ [c]]
    | none => [[c]]
  | (.or, c) => groups ++ [[c]]

def reduce (f : Condition → Condition → Condition) : List Condition → Option Condition
  | [] => none
  | c :: cs => some (cs.foldl f c)

/-- The condition that groups are: `and` joins the conditions of a group, and `or` the groups. -/
def ofGroups (groups : List (List Condition)) : Option Condition :=
  reduce or (groups.filterMap (reduce and))

end Condition

def Predicate.condition (name : String) : Predicate → Except QueryError Condition
  | compare c v => .ok (.compare name c v)
  | between low high => .ok (.between name low high)
  | withinList values => Condition.withinOf name (.list values)
  | within values => Condition.withinOf name values

/-- The condition that a test is: its name must not be empty, and its numbers must be finite. -/
def Test.condition (t : Test) : Except QueryError Condition := do
  checkName .conditionField t.name
  let c ← t.predicate.condition t.name
  if !c.isFinite then .error (.argument .notFinite)
  else return if t.negated then .not c else c

/-- The tests of a filter, each with the connective before it. -/
def Filter.tests (f : Filter) : List (Connective × Test) :=
  (.and, f.first) :: f.others

def Filter.condition? : Option Filter → Except QueryError (Option Condition)
  | none => .ok none
  | some f => do
    let conditions ← f.tests.mapM fun (connective, t) => do
      let c ← t.condition
      return (connective, c)
    return Condition.ofGroups (conditions.foldl Condition.addToGroups [])

namespace Chain

/-- The statement that a chain describes. -/
def build (c : Chain) : Except QueryError Statement := do
  c.fields.forM (checkName .projectedField)
  checkName .entity c.entity
  let condition ← Filter.condition? c.filter
  match c.kind with
  | .select sorts skip limit =>
    sorts.forM fun s => checkName .orderField s.name
    return .select ⟨c.entity, c.fields, condition, sorts, skip, limit⟩
  | .delete => return .delete ⟨c.entity, c.fields, condition⟩

end Chain

end StoreQuery

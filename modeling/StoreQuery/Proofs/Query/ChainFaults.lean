import StoreQuery.Proofs.Query.BuiltText
import StoreQuery.Query.Draft

/-! # Faults of chains

What is wrong with a chain can be listed clause by clause, without building anything: the names that
are empty, the lists that a test cannot look into, and the numbers that are not finite. Building
fails with the first item of the list, and a chain without faults is built as it is stated.
-/

namespace StoreQuery

open Number

mutual

def Value.floats : Value → List Binary64
  | .float x => [x]
  | .array items => Value.floatsOfItems items
  | .null | .bool _ | .int _ | .text _ | .json _ => []

def Value.floatsOfItems : List Value → List Binary64
  | [] => []
  | v :: vs => v.floats ++ Value.floatsOfItems vs

end

mutual

def Operand.floats : Operand → List Binary64
  | .literal v => v.floats
  | .list items => Operand.floatsOfItems items
  | .parameter _ | .document _ | .nested _ => []

def Operand.floatsOfItems : List Operand → List Binary64
  | [] => []
  | v :: vs => v.floats ++ Operand.floatsOfItems vs

end

mutual

theorem Value.isFinite_eq : ∀ v : Value, v.isFinite = v.floats.all Binary64.isFinite
  | .float _ => (Bool.and_true _).symm
  | .array items => Value.areFinite_eq items
  | .null | .bool _ | .int _ | .text _ | .json _ => rfl

theorem Value.areFinite_eq : ∀ vs : List Value,
    Value.areFinite vs = (Value.floatsOfItems vs).all Binary64.isFinite
  | [] => rfl
  | v :: vs => by
    rw [areFinite, floatsOfItems, List.all_append, isFinite_eq v, areFinite_eq vs]

end

mutual

theorem Operand.isFinite_eq : ∀ v : Operand, v.isFinite = v.floats.all Binary64.isFinite
  | .literal v => v.isFinite_eq
  | .list items => Operand.areFinite_eq items
  | .parameter _ | .document _ | .nested _ => rfl

theorem Operand.areFinite_eq : ∀ vs : List Operand,
    Operand.areFinite vs = (Operand.floatsOfItems vs).all Binary64.isFinite
  | [] => rfl
  | v :: vs => by
    rw [areFinite, floatsOfItems, List.all_append, isFinite_eq v, areFinite_eq vs]

end

def nameFaults (role : NameRole) (name : String) : List QueryError :=
  if name = "" then [.argument (.emptyName role)] else []

theorem checkName_eq (role : NameRole) (name : String) :
    checkName role name = failFirst (nameFaults role name) () := by
  by_cases h : name = "" <;> simp [checkName, nameFaults, failFirst, h]

namespace Predicate

def floats : Predicate → List Binary64
  | compare _ v | within v => v.floats
  | between low high => low.floats ++ high.floats
  | withinList values => Operand.floatsOfItems values

/-- Whether a predicate has a list to look into, if it needs one. -/
def hasChoices : Predicate → Bool
  | compare .. | between .. => true
  | withinList values => !values.isEmpty
  | within v => v.isChoices

/-- What is wrong with a predicate on a field: its list first, then its numbers. -/
def faults (name : String) (p : Predicate) : List QueryError :=
  (if p.hasChoices then [] else [.meaning (.noChoices name)]) ++
    if p.floats.all Binary64.isFinite then [] else [.argument .notFinite]

/-- The condition that a predicate states, whether or not it has faults. -/
def stated (name : String) : Predicate → Condition
  | compare c v => .compare name c v
  | between low high => .between name low high
  | withinList values => .within name (.list values)
  | within values => .within name values

theorem isFinite_stated (name : String) (p : Predicate) :
    (p.stated name).isFinite = p.floats.all Binary64.isFinite := by
  cases p with
  | compare c v => exact v.isFinite_eq
  | within v => exact v.isFinite_eq
  | withinList values => exact Operand.areFinite_eq values
  | between low high =>
    rw [floats, List.all_append, ← Operand.isFinite_eq, ← Operand.isFinite_eq]
    rfl

theorem condition_eq (name : String) (p : Predicate) :
    p.condition name =
      failFirst (if p.hasChoices then [] else [.meaning (.noChoices name)]) (p.stated name) := by
  have hwithin : ∀ v : Operand, Condition.withinOf name v =
      failFirst (if v.isChoices then [] else [.meaning (.noChoices name)])
        (.within name v) := by
    intro v
    rw [Condition.withinOf]
    cases v.isChoices <;> rfl
  cases p with
  | compare | between => rfl
  | withinList values => exact hwithin (.list values)
  | within values => exact hwithin values

end Predicate

namespace Test

/-- What is wrong with a test: the name of its field first, then its predicate. -/
def faults (t : Test) : List QueryError :=
  nameFaults .conditionField t.name ++ t.predicate.faults t.name

def stated (t : Test) : Condition :=
  if t.negated then .not (t.predicate.stated t.name) else t.predicate.stated t.name

end Test

theorem Pending.condition_eq (t : Pending) (p : Predicate) :
    t.condition p = failFirst (p.faults t.name) (Test.stated ⟨t.name, t.negated, p⟩) := by
  rw [condition, Predicate.condition_eq, Predicate.faults]
  apply failFirst_bind
  rw [Predicate.isFinite_stated, Test.stated]
  cases List.all _ _ <;> rfl

namespace Test

theorem condition_eq (t : Test) : t.condition = failFirst t.faults t.stated := by
  rw [condition, checkName_eq, faults]
  exact failFirst_bind (Pending.condition_eq ⟨.and, t.name, t.negated⟩ t.predicate)

theorem leaves_stated (t : Test) : t.stated.leaves = [t.predicate.stated t.name] := by
  have hleaf : (t.predicate.stated t.name).isLogical = false := by
    cases t.predicate <;> rfl
  rw [stated]
  cases t.negated <;> exact Condition.leaves_leaf hleaf

end Test

namespace Filter

/-- The condition that tests state, where there are any: `and` binds tighter than `or`. -/
def stated : List (Connective × Test) → Option Condition
  | [] => none
  | (_, t) :: ts => some (.join t.stated (ts.map fun (o, t) => (o, t.stated)))

def allTests : Option Filter → List (Connective × Test)
  | none => []
  | some f => f.tests

theorem condition?_eq (f : Option Filter) :
    condition? f = failFirst ((allTests f).flatMap (·.2.faults)) (stated (allTests f)) := by
  cases f with
  | none => rfl
  | some f =>
    have htest : ∀ t : Connective × Test,
        (do let c ← t.2.condition; return (t.1, c)) = failFirst t.2.faults (t.1, t.2.stated) := by
      intro t
      rw [t.2.condition_eq]
      exact failFirst_map
    rw [condition?, mapM_eq_failFirst htest]
    apply failFirst_map.trans
    rw [tests, List.map_cons, Condition.ofGroups_eq_join]
    rfl

theorem leaves_stated {ts : List (Connective × Test)} {c : Condition} (h : stated ts = some c) :
    c.leaves = ts.map fun t => t.2.predicate.stated t.2.name := by
  cases ts with
  | nil => cases h
  | cons t ts =>
    cases h
    rw [Condition.leaves_join, Test.leaves_stated, List.flatMap_map, List.map_cons,
      List.map_eq_flatMap]
    simp only [Test.leaves_stated]
    rfl

end Filter

namespace Chain

def tests (c : Chain) : List (Connective × Test) :=
  Filter.allTests c.filter

def sorts (c : Chain) : List SortKey :=
  match c.kind with
  | .select sorts _ _ => sorts
  | .delete => []

/-- What is wrong with a chain, clause by clause. -/
def faults (c : Chain) : List QueryError :=
  c.fields.flatMap (nameFaults .projectedField) ++ (nameFaults .entity c.entity ++
    (c.tests.flatMap (·.2.faults) ++ c.sorts.flatMap fun s => nameFaults .orderField s.name))

def stated (c : Chain) : Statement :=
  match c.kind with
  | .select sorts skip limit =>
    .select ⟨c.entity, c.fields, Filter.stated c.tests, sorts, skip, limit⟩
  | .delete => .delete ⟨c.entity, c.fields, Filter.stated c.tests⟩

/-- Building fails with the first fault of a chain, and gives what it states if there is none. -/
theorem build_eq (c : Chain) : c.build = failFirst c.faults c.stated := by
  obtain ⟨fields, entity, filter, kind⟩ := c
  rw [build, forM_eq_failFirst (checkName_eq .projectedField), checkName_eq,
    Filter.condition?_eq, faults]
  apply failFirst_bind
  apply failFirst_bind
  apply failFirst_bind
  cases kind with
  | select sorts skip limit =>
    dsimp only
    rw [forM_eq_failFirst fun s : SortKey => checkName_eq .orderField s.name]
    exact failFirst_map
  | delete => rfl

end Chain

end StoreQuery

import StoreQuery.Value

/-! # Operands, conditions and selects

An operand is a value as a statement writes it; a condition is a tree of tests on named fields; a
select may stand in an operand, so the three are defined together.
-/

namespace StoreQuery

inductive Comparison where
  | equal
  | greater
  | greaterOrEqual
  | less
  | lessOrEqual
  | like
  deriving DecidableEq, Repr

namespace Comparison

def render : Comparison → String
  | equal => "="
  | greater => ">"
  | greaterOrEqual => ">="
  | less => "<"
  | lessOrEqual => "<="
  | like => "like"

end Comparison

inductive Operator where
  | comparison (c : Comparison)
  | within
  | between
  | and
  | or
  | not
  deriving DecidableEq, Repr

namespace Operator

def render : Operator → String
  | comparison c => c.render
  | within => "in"
  | between => "between"
  | and => "and"
  | or => "or"
  | not => "not"

def isComparison : Operator → Bool
  | comparison _ => true
  | _ => false

def isLogical : Operator → Bool
  | and | or | not => true
  | _ => false

end Operator

inductive Direction where
  | asc
  | desc
  deriving DecidableEq, Repr

def Direction.word : Direction → String
  | asc => "asc"
  | desc => "desc"

structure SortKey where
  name : String
  direction : Direction
  deriving DecidableEq, Repr

mutual

inductive Operand where
  | literal (value : Value)
  | parameter (name : String)
  | document (json : Json)
  | list (items : List Operand)
  | nested (select : Select)

inductive Condition where
  | compare (name : String) (comparison : Comparison) (operand : Operand)
  | within (name : String) (values : Operand)
  | between (name : String) (low high : Operand)
  | all (conditions : List Condition)
  | any (conditions : List Condition)
  | not (condition : Condition)

/-- A request for the records of an entity that pass a condition. No fields mean all fields, and
the limit 0 means no limit. -/
structure Select where
  entity : String
  fields : List String
  condition : Option Condition
  sorts : List SortKey
  skip : UInt64
  limit : UInt64

end

instance : Inhabited Operand := ⟨.literal .null⟩

namespace Select

def ofEntity (entity : String) : Select :=
  ⟨entity, [], none, [], 0, 0⟩

def isPaged (s : Select) : Bool :=
  0 < s.skip || 0 < s.limit

end Select

namespace Condition

def operator : Condition → Operator
  | compare _ c _ => .comparison c
  | within .. => .within
  | between .. => .between
  | all _ => .and
  | any _ => .or
  | not _ => .not

def name? : Condition → Option String
  | compare n .. | within n _ | between n .. => some n
  | all _ | any _ | not _ => none

def isLogical (c : Condition) : Bool :=
  c.operator.isLogical

/-- The parts that a conjunction has, or the condition itself. -/
def conjuncts : Condition → List Condition
  | all cs => cs
  | c => [c]

def disjuncts : Condition → List Condition
  | any cs => cs
  | c => [c]

/-- Both conditions; conjunctions on either side are joined into one. -/
def and (a b : Condition) : Condition :=
  all (a.conjuncts ++ b.conjuncts)

def or (a b : Condition) : Condition :=
  any (a.disjuncts ++ b.disjuncts)

theorem and_assoc (a b c : Condition) : (a.and b).and c = a.and (b.and c) := by
  simp [and, conjuncts]

theorem or_assoc (a b c : Condition) : (a.or b).or c = a.or (b.or c) := by
  simp [or, disjuncts]

section Fold

variable {α : Type} (compareF : String → Comparison → Operand → α) (withinF : String → Operand → α)
  (betweenF : String → Operand → Operand → α) (allF anyF : List α → α) (notF : α → α)

mutual

/-- A condition translated from its leaves up. -/
def fold : Condition → α
  | compare n c v => compareF n c v
  | within n v => withinF n v
  | between n low high => betweenF n low high
  | all cs => allF (foldAll cs)
  | any cs => anyF (foldAll cs)
  | not c => notF (fold c)

def foldAll : List Condition → List α
  | [] => []
  | c :: cs => fold c :: foldAll cs

end

theorem foldAll_eq_map (cs : List Condition) :
    foldAll compareF withinF betweenF allF anyF notF cs =
      cs.map (fold compareF withinF betweenF allF anyF notF) := by
  induction cs with
  | nil => rfl
  | cons c cs ih => simp [foldAll, ih]

end Fold

end Condition

mutual

/-- Equality of operands, numbers being compared as numbers of their kind. -/
def Operand.same : Operand → Operand → Bool
  | .literal v, .literal w => v.same w
  | .parameter m, .parameter n => m == n
  | .document a, .document b => a.same b
  | .list xs, .list ys => Operand.sameItems xs ys
  | .nested s, .nested t => s.same t
  | _, _ => false

def Operand.sameItems : List Operand → List Operand → Bool
  | [], [] => true
  | x :: xs, y :: ys => x.same y && Operand.sameItems xs ys
  | _, _ => false

def Condition.same : Condition → Condition → Bool
  | .compare m c v, .compare n d w => m == n && c == d && v.same w
  | .within m v, .within n w => m == n && v.same w
  | .between m a b, .between n c d => m == n && a.same c && b.same d
  | .all cs, .all ds => Condition.sameItems cs ds
  | .any cs, .any ds => Condition.sameItems cs ds
  | .not c, .not d => c.same d
  | _, _ => false

def Condition.sameItems : List Condition → List Condition → Bool
  | [], [] => true
  | c :: cs, d :: ds => c.same d && Condition.sameItems cs ds
  | _, _ => false

def Condition.same? : Option Condition → Option Condition → Bool
  | none, none => true
  | some c, some d => c.same d
  | _, _ => false

def Select.same : Select → Select → Bool
  | ⟨entity, fields, condition, sorts, skip, limit⟩, t =>
    entity == t.entity && fields == t.fields && Condition.same? condition t.condition &&
      sorts == t.sorts && skip == t.skip && limit == t.limit

end

end StoreQuery

import StoreQuery.Error

/-! # Forming statements from parts

The parts of a statement do not always fit together: an `in` needs a list with members, a `between`
two bounds, a payload exactly one of its two forms.
-/

namespace StoreQuery

mutual

/-- A document in the shape that query text gives it: lists become lists of operands, and what is no
object becomes a literal. -/
def Operand.ofJson : Json → Operand
  | .object members => .document (.object members)
  | .array items => .list (Operand.ofJsonItems items)
  | .null => .literal .null
  | .bool b => .literal (.bool b)
  | .number n => .literal (Value.ofJson (.number n))
  | .text s => .literal (.text s)

def Operand.ofJsonItems : List Json → List Operand
  | [] => []
  | j :: js => Operand.ofJson j :: Operand.ofJsonItems js

end

mutual

def Operand.ofValue : Value → Operand
  | .array items => .list (Operand.ofValues items)
  | .json j => Operand.ofJson j
  | .null => .literal .null
  | .bool b => .literal (.bool b)
  | .int n => .literal (.int n)
  | .float x => .literal (.float x)
  | .text s => .literal (.text s)

def Operand.ofValues : List Value → List Operand
  | [] => []
  | v :: vs => Operand.ofValue v :: Operand.ofValues vs

end

namespace Operand

def isParameter : Operand → Bool
  | parameter _ => true
  | _ => false

def literal? : Operand → Option Value
  | literal v => some v
  | _ => none

/-- Whether reading the operand would give a value of a kind, judged by its outermost shape. -/
def isOf : Operand → ValueKind → Bool
  | literal v, k => v.isOf k
  | document _, k => k == .json
  | list _, k => k == .array
  | parameter _, _ | nested _, _ => false

mutual

/-- The value of an operand. A parameter has none before it is bound, a select none at all. -/
def read : Operand → Except QueryError Value
  | literal v => .ok v
  | parameter name => .error (.unresolvedParameter name)
  | document j => .ok (.json j)
  | list items =>
    match readItems items with
    | .ok values => .ok (.array values)
    | .error e => .error e
  | nested _ => .error (.meaning .valueOfSelect)

def readItems : List Operand → Except QueryError (List Value)
  | [] => .ok []
  | x :: xs =>
    match read x with
    | .error e => .error e
    | .ok v =>
      match readItems xs with
      | .error e => .error e
      | .ok vs => .ok (v :: vs)

end

/-- Whether an operand can be the values of an `in`: a list with members, or a parameter or a
select, whose values come later. -/
def isChoices : Operand → Bool
  | parameter _ | nested _ => true
  | list items => !items.isEmpty
  | literal (.array items) => !items.isEmpty
  | document (.array items) => !items.isEmpty
  | _ => false

mutual

/-- Whether literals and lists hold only finite numbers. -/
def isFinite : Operand → Bool
  | literal v => v.isFinite
  | list items => areFinite items
  | parameter _ | document _ | nested _ => true

def areFinite : List Operand → Bool
  | [] => true
  | x :: xs => isFinite x && areFinite xs

end

end Operand

namespace Condition

def compareBy (name : String) (operator : Operator) (operand : Operand) :
    Except QueryError Condition :=
  match operator with
  | .comparison c => .ok (compare name c operand)
  | _ => .error (.meaning (.noComparison operator))

def withinOf (name : String) (values : Operand) : Except QueryError Condition :=
  if values.isChoices then .ok (within name values) else .error (.meaning (.noChoices name))

/-- `name between low and high`, for exactly two bounds. -/
def betweenOf (name : String) (bounds : List Operand) : Except QueryError Condition :=
  match bounds with
  | [low, high] => .ok (between name low high)
  | _ => .error (.meaning (.notTwoBounds name))

/-- All of some conditions; a single one stays as it is. -/
def allOf : List Condition → Except QueryError Condition
  | [] => .error (.meaning .emptyConjunction)
  | c :: cs => .ok (cs.foldl and c)

def anyOf : List Condition → Except QueryError Condition
  | [] => .error (.meaning .emptyDisjunction)
  | c :: cs => .ok (cs.foldl or c)

end Condition

/-- The payload that a statement's parts give: one of them has to be there, and not both. -/
def Payload.ofParts (assignments : Option (List Condition)) (document : Option Operand) :
    Except QueryError Payload :=
  match assignments, document with
  | some conditions, none => .ok (.assignments conditions)
  | none, some operand => .ok (.document operand)
  | some _, some _ => .error (.meaning .twoPayloads)
  | none, none => .error (.meaning .noPayload)

end StoreQuery

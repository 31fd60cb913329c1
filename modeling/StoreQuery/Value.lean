import StoreQuery.Json.Printer

/-! # Values

A value is what a literal in query text stands for, what a bound parameter holds, and what a store
keeps in a field.
-/

namespace StoreQuery

open Number Text

inductive Value where
  | null
  | bool (b : Bool)
  | int (n : Int64)
  | float (x : Binary64)
  | text (s : String)
  | json (document : Json)
  | array (items : List Value)
  deriving Inhabited, Repr

inductive ValueKind where
  | null
  | bool
  | int
  | float
  | text
  | json
  | array
  deriving DecidableEq, Repr

namespace ValueKind

def name : ValueKind → String
  | null => "null"
  | bool => "bool"
  | int => "int"
  | float => "float"
  | text => "text"
  | json => "json"
  | array => "array"

def all : List ValueKind :=
  [null, bool, int, float, text, json, array]

end ValueKind

namespace Value

def kind : Value → ValueKind
  | null => .null
  | bool _ => .bool
  | int _ => .int
  | float _ => .float
  | text _ => .text
  | json _ => .json
  | array _ => .array

def isOf (v : Value) (k : ValueKind) : Bool :=
  v.kind == k

def int? : Value → Option Int64
  | int n => some n
  | _ => none

/-- The value as a floating-point number; an integer is taken for the nearest one. -/
def float? : Value → Option Binary64
  | int n => some (.finite (.ofInt n.toInt))
  | float x => some x
  | _ => none

def text? : Value → Option String
  | text s => some s
  | _ => none

def bool? : Value → Option Bool
  | bool b => some b
  | _ => none

def array? : Value → Option (List Value)
  | array items => some items
  | _ => none

mutual

/-- A document as a value. An object stays a document; an integer beyond the signed words becomes
the nearest floating-point number. -/
def ofJson : Json → Value
  | .null => null
  | .bool b => bool b
  | .number (.integer n) =>
    match n.toInt64? with
    | some n => int n
    | none => float (.finite (.ofInt n.val))
  | .number (.float x) => float (.finite x)
  | .text s => text s
  | .array items => array (ofJsonItems items)
  | .object members => json (.object members)

def ofJsonItems : List Json → List Value
  | [] => []
  | j :: js => ofJson j :: ofJsonItems js

end

mutual

/-- A value as a document; what is no finite number becomes null. -/
def toJson : Value → Json
  | null => .null
  | bool b => .bool b
  | int n => .ofInt64 n
  | float (.finite x) => .ofFinite x
  | float _ => .null
  | text s => .text s
  | json document => document
  | array items => .array (itemsToJson items)

def itemsToJson : List Value → List Json
  | [] => []
  | v :: vs => toJson v :: itemsToJson vs

end

mutual

/-- Equality of values, numbers being compared as numbers of their kind. -/
def same : Value → Value → Bool
  | null, null => true
  | bool a, bool b => a == b
  | int m, int n => m == n
  | float x, float y => x.same y
  | text s, text t => s == t
  | json a, json b => a.same b
  | array xs, array ys => sameItems xs ys
  | _, _ => false

def sameItems : List Value → List Value → Bool
  | [], [] => true
  | x :: xs, y :: ys => same x y && sameItems xs ys
  | _, _ => false

end

mutual

def render : Value → String
  | null => "null"
  | bool b => toString b
  | int n => toString n.toInt
  | float x => String.ofList (Layout.query.write x)
  | text s => quote s
  | json document => document.compact
  | array [] => "\x7b\x7d"
  | array (v :: vs) => "\x7b" ++ render v ++ renderItems vs ++ "\x7d"

def renderItems : List Value → String
  | [] => ""
  | v :: vs => ", " ++ render v ++ renderItems vs

end

mutual

/-- Whether a value holds only finite numbers; documents always do. -/
def isFinite : Value → Bool
  | float x => x.isFinite
  | array items => areFinite items
  | _ => true

def areFinite : List Value → Bool
  | [] => true
  | v :: vs => isFinite v && areFinite vs

end

end Value

end StoreQuery

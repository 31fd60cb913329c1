import StoreQuery.Number.Binary64

/-! # JSON documents

Integers are kept exactly as far as 64 bits hold them, with or without a sign; every other number
is a finite floating-point number. The members of an object that is read or built by `insert`
stand in increasing order of their keys, and each key stands once.
-/

namespace StoreQuery

open Number

namespace Json

structure Integer where
  val : Int
  lower : -0x8000000000000000 ≤ val
  upper : val < 0x10000000000000000
  deriving DecidableEq, Repr

namespace Integer

def ofInt64 (n : Int64) : Integer :=
  ⟨n.toInt, n.le_toInt, Int.lt_trans n.toInt_lt (by decide)⟩

def ofUInt64 (n : UInt64) : Integer :=
  ⟨n.toNat, by omega, by have := n.toNat_lt; omega⟩

def toInt64? (n : Integer) : Option Int64 :=
  if n.val < 0x8000000000000000 then some (Int64.ofInt n.val) else none

def toUInt64? (n : Integer) : Option UInt64 :=
  if 0 ≤ n.val then some (UInt64.ofNat n.val.toNat) else none

theorem toInt64?_ofInt64 (n : Int64) : (ofInt64 n).toInt64? = some n := by
  have h : n.toInt < 0x8000000000000000 := n.toInt_lt
  simp only [toInt64?, ofInt64, if_pos h, Int64.ofInt_toInt]

theorem toUInt64?_ofUInt64 (n : UInt64) : (ofUInt64 n).toUInt64? = some n := by
  simp [toUInt64?, ofUInt64]

end Integer

inductive Num where
  | integer (n : Integer)
  | float (x : Binary64.Finite)
  deriving DecidableEq, Repr

namespace Num

/-- Equality as numbers of one kind: an integer never equals a floating-point number. -/
def same : Num → Num → Bool
  | integer m, integer n => m == n
  | float x, float y => x.scaled == y.scaled
  | _, _ => false

end Num

end Json

inductive Json where
  | null
  | bool (b : Bool)
  | number (n : Json.Num)
  | text (s : String)
  | array (items : List Json)
  | object (members : List (String × Json))
  deriving Inhabited, Repr

namespace Json

def ofInt64 (n : Int64) : Json :=
  .number (.integer (.ofInt64 n))

def ofUInt64 (n : UInt64) : Json :=
  .number (.integer (.ofUInt64 n))

def ofFinite (x : Binary64.Finite) : Json :=
  .number (.float x)

/-- A list of members with a value put under a key, in the place where the order of keys wants it;
the value that the key had is replaced. -/
def insert (key : String) (value : Json) : List (String × Json) → List (String × Json)
  | [] => [(key, value)]
  | (k, v) :: members =>
    if key < k then (key, value) :: (k, v) :: members
    else if key = k then (key, value) :: members
    else (k, v) :: insert key value members

/-- The members given one after the other, the last value of a key winning. -/
def ofMembers (members : List (String × Json)) : Json :=
  .object (members.foldl (fun sorted (key, value) => insert key value sorted) [])

mutual

def same : Json → Json → Bool
  | null, null => true
  | bool a, bool b => a == b
  | number m, number n => m.same n
  | text s, text t => s == t
  | array xs, array ys => sameItems xs ys
  | object ms, object ns => sameMembers ms ns
  | _, _ => false

def sameItems : List Json → List Json → Bool
  | [], [] => true
  | x :: xs, y :: ys => same x y && sameItems xs ys
  | _, _ => false

def sameMembers : List (String × Json) → List (String × Json) → Bool
  | [], [] => true
  | (k, x) :: ms, (l, y) :: ns => k == l && same x y && sameMembers ms ns
  | _, _ => false

end

def text? : Json → Option String
  | text s => some s
  | _ => none

def uint64? : Json → Option UInt64
  | number (.integer n) => n.toUInt64?
  | _ => none

end Json

end StoreQuery

import StoreQuery.Number.Decimal

/-! # How numbers are written

The digits of a number are the same wherever it is written; a layout says when an exponent is used
and how whole numbers and exponents look. Query text, JSON documents and messages have one each.
-/

namespace StoreQuery.Number

/-- The decisions of one written form of numbers. -/
structure Layout where
  /-- The least and the greatest exponent of the first digit that are written without an exponent;
  without bounds an exponent is never used. -/
  positional : Option (Int × Int)
  /-- Whether a whole number ends in a point and a zero. -/
  pointZero : Bool
  /-- Whether a positive exponent has a sign. -/
  plus : Bool
  /-- Which neighbour is taken midway. -/
  tie : Tie

namespace Layout

/-- Numbers in query text: the point or the exponent tells them from integers. -/
def query : Layout := ⟨some (-4, 15), true, false, .up⟩

def json : Layout := ⟨some (-5, 15), true, true, .even⟩

def message : Layout := ⟨none, false, false, .up⟩

def writePositional (l : Layout) (d : Decimal) : List Char :=
  let digits := Nat.toDigits 10 d.digits
  let whole := if l.pointZero then ['.', '0'] else []
  if 0 ≤ d.exponent then digits ++ List.replicate d.exponent.toNat '0' ++ whole
  else
    let places := (-d.exponent).toNat
    if digits.length ≤ places then
      '0' :: '.' :: (List.replicate (places - digits.length) '0' ++ digits)
    else
      digits.take (digits.length - places) ++ '.' :: digits.drop (digits.length - places)

def writeScientific (l : Layout) (d : Decimal) : List Char :=
  let fraction := match Nat.toDigits 10 d.digits with
    | [] => []
    | [c] => [c]
    | c :: cs => c :: '.' :: cs
  let mark := if 0 ≤ d.leading then (if l.plus then ['e', '+'] else ['e']) else ['e', '-']
  fraction ++ mark ++ Nat.toDigits 10 d.leading.natAbs

def writeMagnitude (l : Layout) (rank : Nat) : List Char :=
  let d := Decimal.shortest l.tie rank
  match l.positional with
  | some (least, greatest) =>
    if rank = 0 || (least ≤ d.leading && d.leading ≤ greatest) then l.writePositional d
    else l.writeScientific d
  | none => l.writePositional d

def writeFinite (l : Layout) (x : Binary64.Finite) : List Char :=
  if x.negative then '-' :: l.writeMagnitude x.rank else l.writeMagnitude x.rank

def write (l : Layout) : Binary64 → List Char
  | .finite x => l.writeFinite x
  | .infinite negative => if negative then ['-', 'i', 'n', 'f'] else ['i', 'n', 'f']
  | .nan => ['N', 'a', 'N']

end Layout

end StoreQuery.Number

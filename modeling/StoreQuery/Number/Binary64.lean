import StoreQuery.Number.Rounding

/-! # Binary floating-point numbers of 64 bits

A finite number is a sign and the place of its magnitude among all finite magnitudes in increasing
order. Zero has place 0, and two neighbouring places are neighbouring magnitudes, so order and
rounding intervals are read off the places.
-/

namespace StoreQuery.Number

namespace Binary64

abbrev magnitudeCount : Nat := 2047 * 0x10000000000000

/-- The magnitude at a place, in units of `2 ^ (-1074)`. -/
def magnitude (rank : Nat) : Nat :=
  if rank < 0x10000000000000 then rank
  else (0x10000000000000 + rank % 0x10000000000000) <<< (rank / 0x10000000000000 - 1)

/-- A finite number: its sign and the place of its magnitude. -/
structure Finite where
  negative : Bool
  rank : Fin magnitudeCount
  deriving DecidableEq, Repr

namespace Finite

def zero (negative : Bool) : Finite :=
  ⟨negative, ⟨0, by decide⟩⟩

def isZero (x : Finite) : Bool :=
  x.rank.val == 0

def neg (x : Finite) : Finite :=
  ⟨!x.negative, x.rank⟩

@[simp] theorem neg_neg (x : Finite) : x.neg.neg = x := by
  simp [neg]

/-- The number in units of `2 ^ (-1074)`. -/
def scaled (x : Finite) : Int :=
  if x.negative then -(magnitude x.rank : Int) else magnitude x.rank

/-- The finite number nearest to `num / den` with the given sign, unless the quotient is too
large for one. -/
def ofRatio? (negative : Bool) (num den : Nat) : Option Finite :=
  let (m, p) := Format.double.round num den
  let rank := p * 0x10000000000000 + m
  if h : rank < magnitudeCount then some ⟨negative, ⟨rank, h⟩⟩ else none

def mul? (x y : Finite) : Option Finite :=
  ofRatio? (x.negative != y.negative) (magnitude x.rank * magnitude y.rank) (1 <<< 2148)

def div? (x y : Finite) : Option Finite :=
  if y.isZero then none
  else ofRatio? (x.negative != y.negative) (magnitude x.rank) (magnitude y.rank)

def ofInt (n : Int) : Finite :=
  (ofRatio? (n < 0) n.natAbs 1).getD (zero false)

end Finite

end Binary64

/-- A floating-point number of 64 bits, with one value for all results that are no number. -/
inductive Binary64 where
  | finite (x : Binary64.Finite)
  | infinite (negative : Bool)
  | nan
  deriving DecidableEq, Repr

namespace Binary64

def isFinite : Binary64 → Bool
  | finite _ => true
  | infinite _ | nan => false

/-- The order of numbers: both zeros are equal, and what is no number has no order. -/
def compare? : Binary64 → Binary64 → Option Ordering
  | finite x, finite y => some (compare x.scaled y.scaled)
  | finite _, infinite negative => some (if negative then .gt else .lt)
  | infinite negative, finite _ => some (if negative then .lt else .gt)
  | infinite false, infinite false | infinite true, infinite true => some .eq
  | infinite a, infinite _ => some (if a then .lt else .gt)
  | nan, _ | _, nan => none

def same (x y : Binary64) : Bool :=
  x.compare? y == some .eq

/-- The finite number of 32 bits nearest to `num / den` as one of 64 bits; infinite if the quotient
is too large for 32 bits. -/
def viaSingle (negative : Bool) (num den : Nat) : Binary64 :=
  let (m, p) := Format.single.round num den
  if 1 <<< (128 + Format.single.fine) ≤ m <<< p then .infinite negative
  else match Finite.ofRatio? negative (m <<< p) (1 <<< Format.single.fine) with
    | some x => .finite x
    | none => .infinite negative

end Binary64

end StoreQuery.Number

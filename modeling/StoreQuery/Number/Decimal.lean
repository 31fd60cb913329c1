import StoreQuery.Number.Binary64

/-! # Decimal digits of numbers

A decimal is a whole number of digits times a power of ten. `Decimal.shortest` finds the decimal
with the fewest digits that reads back as a given number, and of those the nearest;
`Decimal.toFinite?` reads a decimal as the nearest number.
-/

namespace StoreQuery.Number

/-- A magnitude `digits * 10 ^ exponent`. -/
structure Decimal where
  digits : Nat
  exponent : Int
  deriving DecidableEq, Repr

/-- Which of two neighbours is taken when a number lies midway between them. -/
inductive Tie where
  | up
  | even
  deriving DecidableEq, Repr

namespace Decimal

def leading (d : Decimal) : Int :=
  d.exponent + (Nat.toDigits 10 d.digits).length - 1

def ratio (d : Decimal) : Nat × Nat :=
  (d.digits * Nat.pow 10 d.exponent.toNat, Nat.pow 10 (-d.exponent).toNat)

/-- The nearest finite number of a decimal with a sign, unless the decimal is too large. A decimal
that is far out of range is settled by its first digit's exponent alone. -/
def toFinite? (negative : Bool) (d : Decimal) : Option Binary64.Finite :=
  if d.digits = 0 then some (.zero negative)
  else if 400 < d.leading then none
  else if d.leading < -400 then some (.zero negative)
  else Binary64.Finite.ofRatio? negative d.ratio.1 d.ratio.2

/-- The multiple of `10 ^ k` that reads back as the magnitude at a place, if there is one: of the
magnitude's two neighbours on this grid, the nearer of those within the halfway points to the
neighbouring magnitudes. The halfway points themselves read back if the place is even. All
quantities are in units of `2 ^ (-1075)`. -/
def onGrid? (tie : Tie) (rank : Nat) (k : Int) : Option Nat :=
  let scale := Nat.pow 10 (-k).toNat
  let unit := Nat.pow 10 k.toNat <<< 1075
  let value := 2 * Binary64.magnitude rank * scale
  let low := (Binary64.magnitude (rank - 1) + Binary64.magnitude rank) * scale
  let high := (Binary64.magnitude rank + Binary64.magnitude (rank + 1)) * scale
  let readsBack (n : Nat) : Bool :=
    if rank % 2 = 0 then low ≤ n * unit && n * unit ≤ high
    else low < n * unit && n * unit < high
  let n := value / unit
  let below := value - n * unit
  let above := (n + 1) * unit - value
  match readsBack n, readsBack (n + 1) with
  | true, true =>
    if below < above then some n
    else if above < below then some (n + 1)
    else match tie with
      | .up => some (n + 1)
      | .even => some (n + n % 2)
  | true, false => some n
  | false, true => some (n + 1)
  | false, false => none

/-- The first of the grids `10 ^ k`, `10 ^ (k - 1)`, … with a point that reads back. -/
def search (tie : Tie) (rank : Nat) : Nat → Int → Decimal
  | 0, k => ⟨(onGrid? tie rank k).getD 0, k⟩
  | steps + 1, k =>
    match onGrid? tie rank k with
    | some n => ⟨n, k⟩
    | none => search tie rank steps (k - 1)

def exponentAbove (rank : Nat) : Int :=
  ((Nat.log2 (Binary64.magnitude rank) : Int) - 1073) * 30103 / 100000 + 2

/-- The decimal with the fewest digits that reads back as the magnitude at a place, and the nearest
of those. Seventeen digits are always enough. -/
def shortest (tie : Tie) (rank : Nat) : Decimal :=
  if rank = 0 then ⟨0, 0⟩ else search tie rank 24 (exponentAbove rank)

end Decimal

end StoreQuery.Number

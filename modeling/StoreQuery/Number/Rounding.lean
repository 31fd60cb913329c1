/-! # Rounding to a binary format

A binary floating-point format has a number of significant bits and a least unit. The magnitude
nearest to a quotient is found in exact arithmetic; of two nearest ones the even one is taken.
-/

namespace StoreQuery.Number

/-- The whole number nearest to a quotient; a half goes to the even neighbour. -/
def divNearest (num den : Nat) : Nat :=
  let q := num / den
  let r := num % den
  if 2 * r < den then q
  else if den < 2 * r then q + 1
  else q + q % 2

/-- A binary format: its significant bits, and the exponent of the least unit with sign reversed. -/
structure Format where
  precision : Nat
  fine : Nat

def Format.double : Format := ⟨53, 1074⟩

def Format.single : Format := ⟨24, 149⟩

/-- The magnitude nearest to `num / den`, as a multiple `m` of a unit `2 ^ p` times the least unit
of the format, where `p` is as small as the precision allows. -/
def Format.round (f : Format) (num den : Nat) : Nat × Nat :=
  let units := num <<< f.fine / den
  let p := Nat.log2 units + 1 - f.precision
  (divNearest (num <<< f.fine) (den <<< p), p)

end StoreQuery.Number

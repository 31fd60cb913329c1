/-! # Sets of characters

A set of characters is a list of ranges of code points, as the standard's tables give them.
-/

namespace StoreQuery.Text

/-- A set of characters, as inclusive ranges of code points in increasing order. -/
structure CharSet where
  ranges : List (Nat × Nat)

namespace CharSet

def contains (s : CharSet) (c : Char) : Bool :=
  s.ranges.any fun (first, last) => first ≤ c.toNat && c.toNat ≤ last

theorem contains_iff {s : CharSet} {c : Char} :
    s.contains c = true ↔ ∃ r ∈ s.ranges, r.1 ≤ c.toNat ∧ c.toNat ≤ r.2 := by
  simp [contains]

end CharSet

end StoreQuery.Text

import StoreQuery.Proofs.Sequence
import StoreQuery.Query.Forming

/-! # The kinds of values that operands are read as

An operand is asked for the kind of its value without being read. The answer goes by the outermost
shape, whereas the reading goes into every list. So the two agree as long as no part of a list is
without a value; a list with such a part is still taken for an array.
-/

namespace StoreQuery

namespace Operand

mutual

/-- What an operand consists of, from left to right, when all its lists are opened. -/
def leaves : Operand → List Operand
  | list items => leavesOfItems items
  | v => [v]

def leavesOfItems : List Operand → List Operand
  | [] => []
  | x :: xs => leaves x ++ leavesOfItems xs

end

/-- Why an operand has no value, if it is not for one of its parts. -/
def fault? : Operand → Option QueryError
  | parameter name => some (.unresolvedParameter name)
  | nested _ => some (.meaning .valueOfSelect)
  | literal _ | document _ | list _ => none

def firstFault? (v : Operand) : Option QueryError :=
  v.leaves.findSome? fault?

theorem readItems_cons (v : Operand) (vs : List Operand) :
    readItems (v :: vs) = v.read >>= fun w => readItems vs >>= fun ws => .ok (w :: ws) := by
  rw [readItems]
  cases v.read with
  | error => rfl
  | ok => cases readItems vs <;> rfl

theorem read_list (items : List Operand) :
    (list items).read = readItems items >>= fun ws => .ok (.array ws) := by
  rw [read]
  cases readItems items <;> rfl

mutual

/-- Reading goes from left to right and fails at the first part without a value. -/
theorem read_eq_error_iff : ∀ (v : Operand) (e : QueryError),
    v.read = .error e ↔ v.firstFault? = some e
  | literal _, _ | document _, _ => ⟨nofun, nofun⟩
  | parameter _, _ | nested _, _ => by simp [read, firstFault?, leaves, fault?]
  | list items, e => by
    rw [read_list, bind_eq_error]
    constructor
    · rintro (h | ⟨_, _, ⟨⟩⟩)
      exact (readItems_eq_error_iff items e).1 h
    · exact fun h => .inl ((readItems_eq_error_iff items e).2 h)

theorem readItems_eq_error_iff : ∀ (vs : List Operand) (e : QueryError),
    readItems vs = .error e ↔ (leavesOfItems vs).findSome? fault? = some e
  | [], _ => ⟨nofun, nofun⟩
  | v :: vs, e => by
    rw [readItems_cons, bind_eq_error, leavesOfItems, List.findSome?_append, Option.or_eq_some_iff]
    apply or_congr (read_eq_error_iff v e)
    rw [← firstFault?, ← exists_ok_iff (read_eq_error_iff v)]
    constructor
    · rintro ⟨w, hw, h⟩
      obtain h | ⟨_, _, ⟨⟩⟩ := bind_eq_error.1 h
      exact ⟨⟨w, hw⟩, (readItems_eq_error_iff vs e).1 h⟩
    · rintro ⟨⟨w, hw⟩, h⟩
      exact ⟨w, hw, bind_eq_error.2 (.inl ((readItems_eq_error_iff vs e).2 h))⟩

end

theorem exists_read_iff {v : Operand} : (∃ w, v.read = .ok w) ↔ v.firstFault? = none :=
  exists_ok_iff v.read_eq_error_iff

/-- What an operand is read as is of the kind that the operand is taken for. -/
theorem isOf_eq_of_read {v : Operand} {w : Value} (h : v.read = .ok w) (k : ValueKind) :
    v.isOf k = w.isOf k := by
  cases v with
  | literal a =>
    cases h
    rfl
  | document j =>
    cases h
    exact Bool.beq_comm
  | list items =>
    rw [read_list] at h
    obtain ⟨ws, -, ⟨⟩⟩ := bind_eq_ok.1 h
    exact Bool.beq_comm
  | parameter | nested => cases h

theorem isOf_of_read_error {v : Operand} {e : QueryError} (h : v.read = .error e) (k : ValueKind) :
    v.isOf k = true ↔ k = .array ∧ ∃ items, v = list items := by
  cases v with
  | literal | document => cases h
  | list items => simp [isOf]
  | parameter | nested => simp [isOf]

/-- An operand is taken for one of a kind exactly if it is read as a value of this kind, or the kind
is that of arrays and the operand is a list with a part, at any depth, that has no value. Reading
fails exactly if there is such a part, and then for the first one. -/
theorem isOf_iff_reads (v : Operand) (k : ValueKind) :
    (v.isOf k = true ↔ (∃ w, v.read = .ok w ∧ w.kind = k) ∨
      k = .array ∧ (∃ items, v = list items) ∧ ∃ x ∈ v.leaves, x.fault? ≠ none) ∧
    ∀ e, v.read = .error e ↔ v.leaves.findSome? fault? = some e := by
  refine ⟨?_, v.read_eq_error_iff⟩
  have hnone : v.firstFault? = none ↔ ¬∃ x ∈ v.leaves, x.fault? ≠ none := by
    simp [firstFault?]
  cases hv : v.read with
  | ok w =>
    have hparts := hnone.1 (exists_read_iff.1 ⟨w, hv⟩)
    rw [isOf_eq_of_read hv, Value.isOf, beq_iff_eq]
    simp [hparts]
  | error e =>
    have hparts : ∃ x ∈ v.leaves, x.fault? ≠ none := by
      rw [← not_not (a := ∃ x ∈ v.leaves, _), ← hnone, ← exists_read_iff, hv]
      nofun
    rw [isOf_of_read_error hv]
    simp [hparts]

/-- A list with a parameter that has no value yet is taken for an array, but cannot be read. -/
theorem not_isOf_iff_reads :
    ¬∀ (v : Operand) (k : ValueKind),
      v.isOf k = true ↔ ∃ w, v.read = .ok w ∧ w.kind = k := by
  intro h
  obtain ⟨_, hread, -⟩ := (h (.list [.parameter "x"]) .array).1 rfl
  cases hread

end Operand

end StoreQuery

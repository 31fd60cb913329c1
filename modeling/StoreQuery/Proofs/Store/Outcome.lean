import StoreQuery.Proofs.Sequence
import StoreQuery.Store.Outcome

/-! # Readers of outcomes

Every reader of an outcome sees the same stream of records and errors. All records are a list if
there is no error among them. At most one record is looked for in the first two items, so that an
error behind them goes unnoticed. Records are mapped only after the whole outcome has been read.
-/

namespace StoreQuery

namespace Outcome

variable {α β : Type}

/-- What a stream is reduced to, given its first two items. -/
inductive Reduces : List (Except String α) → Except QueryError (Option α) → Prop where
  | none : Reduces [] (.ok none)
  | error {message : String} {items : List (Except String α)} :
      Reduces (.error message :: items) (.error (.store message))
  | one {a : α} : Reduces [.ok a] (.ok (some a))
  | errorBehind {a : α} {message : String} {items : List (Except String α)} :
      Reduces (.ok a :: .error message :: items) (.error (.store message))
  | two {a b : α} {items : List (Except String α)} :
      Reduces (.ok a :: .ok b :: items) (.error .notUnique)

section Streams

variable {items : List (Except String α)} {as : List α} {err : QueryError}

theorem collect_eq_mapM : collect items = items.mapM (Except.mapError .store) := by
  induction items with
  | nil => rfl
  | cons x items ih =>
    rw [List.mapM_cons, ← ih]
    cases x with
    | error message => rfl
    | ok a =>
      rw [collect]
      cases collect items <;> rfl

theorem collect_eq_ok : collect items = .ok as ↔ items = as.map .ok := by
  simp only [collect_eq_mapM, mapM_eq_ok, mapError_eq_ok]
  rw [← List.forall₂_eq_eq_eq, List.forall₂_map_right_iff]

theorem collect_eq_error : collect items = .error err ↔ ∃ before message after,
    items = before ++ .error message :: after ∧ (∀ x ∈ before, ∃ a, x = .ok a) ∧
      err = .store message := by
  simp only [collect_eq_mapM, mapM_eq_error, mapError_eq_ok, mapError_eq_error]
  constructor
  · rintro ⟨before, _, after, hitems, hbefore, message, rfl, rfl⟩
    exact ⟨before, message, after, hitems, hbefore, rfl⟩
  · rintro ⟨before, message, after, hitems, hbefore, rfl⟩
    exact ⟨before, _, after, hitems, hbefore, message, rfl, rfl⟩

end Streams

section Single

theorem single?_stream (r : Outcome α) : (stream r.toStream).single? = r.single? := by
  cases r <;> rfl

/-- Only the first two items are looked at. -/
theorem single?_take (items : List (Except String α)) :
    (stream (items.take 2)).single? = (stream items).single? := by
  match items with
  | [] | [.ok _] | .error _ :: _ | .ok _ :: .error _ :: _ | .ok _ :: .ok _ :: _ => rfl

theorem reduces_single? (r : Outcome α) : Reduces r.toStream r.single? := by
  rw [← single?_stream]
  match r.toStream with
  | [] => exact .none
  | .error _ :: _ => exact .error
  | [.ok _] => exact .one
  | .ok _ :: .error _ :: _ => exact .errorBehind
  | .ok _ :: .ok _ :: _ => exact .two

theorem single?_congr {q r : Outcome α} (h : q.toStream.take 2 = r.toStream.take 2) :
    q.single? = r.single? := by
  rw [← single?_stream q, ← single?_stream r, ← single?_take, h, single?_take]

end Single

structure ReadersAgree (r : Outcome α) : Prop where
  toList_ok : ∀ as, r.toList = .ok as ↔ r.toStream = as.map .ok
  /-- The list fails as the first error in the stream. -/
  toList_error : ∀ err, r.toList = .error err ↔ ∃ before message after,
    r.toStream = before ++ .error message :: after ∧ (∀ x ∈ before, ∃ a, x = .ok a) ∧
      err = .store message
  single : Reduces r.toStream r.single?
  single_congr : ∀ q : Outcome α, q.toStream.take 2 = r.toStream.take 2 → q.single? = r.single?
  single_of_toList : ∀ as, r.toList = .ok as →
    (as = [] → r.single? = .ok none) ∧ (∀ a, as = [a] → r.single? = .ok (some a)) ∧
      (2 ≤ as.length → r.single? = .error .notUnique)

theorem readersAgree (r : Outcome α) : r.ReadersAgree where
  toList_ok _ := collect_eq_ok
  toList_error _ := collect_eq_error
  single := r.reduces_single?
  single_congr _ := single?_congr
  single_of_toList as h := by
    have hstream : r.single? = (stream (as.map .ok)).single? := by
      rw [← single?_stream, collect_eq_ok.1 h]
    refine ⟨?_, ?_, ?_⟩
    · rintro rfl
      exact hstream
    · rintro a rfl
      exact hstream
    · intro hlength
      match as, hlength with
      | _ :: _ :: _, _ => exact hstream

/-- How records are mapped: in order, and only after the outcome has been read. -/
structure MapsAfterwards (r : Outcome α) (read : α → Except QueryError β) : Prop where
  toListAs_ok : ∀ bs, r.toListAs read = .ok bs ↔
    ∃ as, r.toList = .ok as ∧ List.Forall₂ (fun a b => read a = .ok b) as bs
  toListAs_error : ∀ err, r.toListAs read = .error err ↔ r.toList = .error err ∨
    ∃ before a after, r.toList = .ok (before ++ a :: after) ∧
      (∀ c ∈ before, ∃ b, read c = .ok b) ∧ read a = .error err
  singleAs_ok : ∀ b, r.singleAs? read = .ok b ↔
    ∃ a, r.single? = .ok a ∧ Option.Rel (fun a b => read a = .ok b) a b
  singleAs_error : ∀ err, r.singleAs? read = .error err ↔ r.single? = .error err ∨
    ∃ a, r.single? = .ok (some a) ∧ read a = .error err

section Mapping

variable {r : Outcome α} {read : α → Except QueryError β} {err : QueryError}

theorem toListAs_eq_error : r.toListAs read = .error err ↔ r.toList = .error err ∨
    ∃ before a after, r.toList = .ok (before ++ a :: after) ∧
      (∀ c ∈ before, ∃ b, read c = .ok b) ∧ read a = .error err := by
  simp only [toListAs, bind_eq_error, mapM_eq_error]
  apply or_congr_right
  constructor
  · rintro ⟨_, has, before, a, after, rfl, h⟩
    exact ⟨before, a, after, has, h⟩
  · rintro ⟨before, a, after, has, h⟩
    exact ⟨_, has, before, a, after, rfl, h⟩

theorem singleAs?_eq_ok {b : Option β} : r.singleAs? read = .ok b ↔
    ∃ a, r.single? = .ok a ∧ Option.Rel (fun a b => read a = .ok b) a b := by
  rw [singleAs?, bind_eq_ok]
  apply exists_congr
  intro a
  apply and_congr_right
  intro _
  cases a with
  | none =>
    constructor
    · rintro ⟨⟩
      exact .none
    · rintro ⟨⟩
      rfl
  | some a =>
    show some <$> read a = .ok b ↔ _
    rw [map_eq_pure_bind, bind_eq_ok]
    constructor
    · rintro ⟨b, hb, ⟨⟩⟩
      exact .some hb
    · rintro ⟨hb⟩
      exact ⟨_, hb, rfl⟩

theorem singleAs?_eq_error : r.singleAs? read = .error err ↔ r.single? = .error err ∨
    ∃ a, r.single? = .ok (some a) ∧ read a = .error err := by
  rw [singleAs?, bind_eq_error]
  apply or_congr_right
  constructor
  · rintro ⟨_ | a, ha, h⟩
    · cases h
    · have hmap : some <$> read a = .error err := h
      rw [map_eq_pure_bind, bind_eq_error] at hmap
      obtain h | ⟨_, _, ⟨⟩⟩ := hmap
      exact ⟨a, ha, h⟩
  · rintro ⟨a, ha, h⟩
    have hmap : some <$> read a = .error err := by
      rw [h]
      rfl
    exact ⟨some a, ha, hmap⟩

theorem mapsAfterwards (r : Outcome α) (read : α → Except QueryError β) :
    r.MapsAfterwards read where
  toListAs_ok bs := by simp only [toListAs, bind_eq_ok, mapM_eq_ok]
  toListAs_error _ := toListAs_eq_error
  singleAs_ok _ := singleAs?_eq_ok
  singleAs_error _ := singleAs?_eq_error

end Mapping

/-- The readers of an outcome agree on its stream. The list of all records is the stream without
errors in it, or fails as its first error; at most one record is what the first two items come to,
and so what the list comes to if there is one. Records are mapped afterwards, so that an error of
the stream comes before one of the mapping. -/
theorem readers_agree (r : Outcome α) :
    r.ReadersAgree ∧ ∀ {β : Type} (read : α → Except QueryError β), r.MapsAfterwards read :=
  ⟨r.readersAgree, r.mapsAfterwards⟩

/-- An error behind the second record is seen by the list alone. -/
example : let r : Outcome Nat := .stream [.ok 1, .ok 2, .error "lost"]
    r.single? = .error .notUnique ∧ r.toList = .error (.store "lost") :=
  ⟨rfl, rfl⟩

end Outcome

end StoreQuery

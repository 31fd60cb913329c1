import Mathlib.Data.List.Induction
import Mathlib.Data.List.Nodup
import StoreQuery.Entity
import StoreQuery.Proofs.Sequence

/-! # Laws of records

A record is seen through the names of its fields and their values. Setting a value changes the field
of this name alone, and a name that is new comes last. So a record that is built of members has each
name once, where it first stands, with the last value that was given to it.
-/

namespace StoreQuery

section Lookup

variable {α : Type} {n : String} {ms : List (String × α)}

theorem lookup_reverse_cons {m : String × α} :
    (m :: ms).reverse.lookup n =
      (ms.reverse.lookup n).or (if n = m.1 then some m.2 else none) := by
  obtain ⟨k, a⟩ := m
  rw [List.reverse_cons, List.lookup_append]
  by_cases h : n = k <;> simp [List.lookup_cons, h, beq_eq_false_iff_ne.2]

theorem lookup_reverse (h : (ms.map Prod.fst).Nodup) : ms.reverse.lookup n = ms.lookup n := by
  induction ms with
  | nil => rfl
  | cons m ms ih =>
    obtain ⟨k, a⟩ := m
    rw [List.map_cons, List.nodup_cons] at h
    rw [lookup_reverse_cons, ih h.2]
    by_cases hn : n = k
    · have hnone : ms.lookup n = none := by
        rw [List.lookup_eq_none_iff]
        rintro ⟨l, b⟩ hm
        have hne : n ≠ l := by
          rintro rfl
          exact h.1 (hn ▸ List.mem_map.2 ⟨_, hm, rfl⟩)
        exact bne_iff_ne.2 hne
      rw [hnone]
      simp [hn]
    · simp [List.lookup_cons, hn, beq_eq_false_iff_ne.2]

end Lookup

namespace Entity

def names (e : Entity) : List String :=
  e.elements.map Element.name

/-- The names of a record with their values. -/
def fields (e : Entity) : List (String × Value) :=
  e.elements.map fun x => (x.name, x.value)

section Insert

variable {e : Entity} {m n : String} {v : Value}

theorem get?_insert : (e.insert m v).get? n = if n = m then some v else e.get? n := by
  obtain ⟨name, elements⟩ := e
  simp only [insert, get?]
  induction elements with
  | nil =>
    by_cases h : n = m
    · simp [setIn, h]
    · simp [setIn, h, Ne.symm h]
  | cons x xs ih =>
    rw [setIn]
    split
    · next hx =>
      by_cases h : n = m
      · simp [h]
      · have hne : x.name ≠ n := fun heq => h (heq.symm.trans hx)
        simp [h, Ne.symm h, hne]
    · next hx =>
      by_cases hn : x.name = n
      · have hne : n ≠ m := fun h => hx (hn.trans h)
        simp [hn, hne]
      · simpa [hn] using ih

theorem map_name_setIn {es : List Element} :
    (setIn n v es).map Element.name =
      if n ∈ es.map Element.name then es.map Element.name else es.map Element.name ++ [n] := by
  induction es with
  | nil => rfl
  | cons x xs ih =>
    rw [setIn]
    split
    · next hx => simp [hx]
    · next hx =>
      have hne : n ≠ x.name := Ne.symm hx
      rw [List.map_cons, ih]
      by_cases h : n ∈ xs.map Element.name
      · rw [if_pos h, List.map_cons, if_pos (List.mem_cons_of_mem _ h)]
      · rw [if_neg h, List.map_cons, if_neg (List.not_mem_cons_of_ne_of_not_mem hne h)]
        rfl

theorem names_insert :
    (e.insert n v).names = if n ∈ e.names then e.names else e.names ++ [n] :=
  map_name_setIn

theorem nodup_names_insert (h : e.names.Nodup) : (e.insert n v).names.Nodup := by
  rw [names_insert]
  split
  · exact h
  · next hn => exact List.nodup_append.2 ⟨h, by simp, by
      intro m hm k hk heq
      rw [List.mem_singleton.1 hk] at heq
      exact hn (heq ▸ hm)⟩

theorem setIn_of_not_mem {es : List Element} (h : n ∉ es.map Element.name) :
    setIn n v es = es ++ [⟨n, v⟩] := by
  induction es with
  | nil => rfl
  | cons x xs ih =>
    rw [List.map_cons, List.mem_cons, not_or] at h
    rw [setIn, if_neg (Ne.symm h.1), ih h.2, List.cons_append]

theorem setIn_of_mem {es : List Element} (hes : (es.map Element.name).Nodup)
    (h : n ∈ es.map Element.name) :
    setIn n v es = es.map fun x => if x.name = n then ⟨n, v⟩ else x := by
  induction es with
  | nil => simp at h
  | cons x xs ih =>
    rw [List.map_cons, List.nodup_cons] at hes
    rw [setIn, List.map_cons]
    split
    · next hx =>
      have hxs : ∀ y ∈ xs, y.name ≠ n := fun y hy hyn =>
        hes.1 (hx ▸ hyn ▸ List.mem_map_of_mem hy)
      rw [List.map_congr_left fun y hy => if_neg (hxs y hy), List.map_id']
    · next hx =>
      rcases List.mem_cons.1 h with hn | hn
      · exact absurd hn.symm hx
      · rw [ih hes.2 hn]

theorem mem_names : n ∈ e.names ↔ (e.get? n).isSome = true := by
  simp only [names, get?, Option.isSome_map, List.find?_isSome, List.mem_map, beq_iff_eq]

theorem lookup_fields : e.fields.lookup n = e.get? n := by
  rw [fields, get?]
  induction e.elements with
  | nil => rfl
  | cons x xs ih =>
    by_cases h : x.name = n
    · simp [h]
    · simpa [List.lookup_cons, h, beq_eq_false_iff_ne.2 (Ne.symm h)] using ih

theorem map_fst_fields : e.fields.map Prod.fst = e.names := by
  simp [fields, names]

end Insert

section Members

variable {α : Type} {value : α → Value} {e : Entity} {ms : List (String × α)} {n name : String}

/-- A record of members, the last value of a name winning. -/
def ofMembers (value : α → Value) (e : Entity) (ms : List (String × α)) : Entity :=
  ms.foldl (fun e m => e.insert m.1 (value m.2)) e

theorem ofMembers_map :
    ofMembers id e (ms.map fun m => (m.1, value m.2)) = ofMembers value e ms :=
  List.foldl_map

theorem ofMembers_concat {m : String × α} :
    ofMembers value e (ms ++ [m]) = (ofMembers value e ms).insert m.1 (value m.2) := by
  simp [ofMembers]

theorem name_ofMembers : (ofMembers value e ms).name = e.name := by
  induction ms generalizing e with
  | nil => rfl
  | cons m ms ih => exact ih

theorem nodup_names_ofMembers (h : e.names.Nodup) : (ofMembers value e ms).names.Nodup := by
  induction ms generalizing e with
  | nil => exact h
  | cons m ms ih => exact ih (nodup_names_insert h)

theorem get?_ofMembers :
    (ofMembers value e ms).get? n = ((ms.reverse.lookup n).map value).or (e.get? n) := by
  induction ms generalizing e with
  | nil => rfl
  | cons m ms ih =>
    show (ofMembers value (e.insert m.1 (value m.2)) ms).get? n = _
    rw [ih, lookup_reverse_cons, get?_insert]
    cases ms.reverse.lookup n <;> by_cases h : n = m.1 <;> simp [h]

theorem get?_ofMembers_ofName :
    (ofMembers value (ofName name) ms).get? n = (ms.reverse.lookup n).map value :=
  get?_ofMembers.trans Option.or_none

theorem mem_names_ofMembers : n ∈ (ofMembers value (ofName name) ms).names ↔
    n ∈ ms.map Prod.fst := by
  rw [mem_names, get?_ofMembers_ofName, Option.isSome_map, List.lookup_isSome_iff]
  simp only [List.mem_reverse, beq_iff_eq, List.mem_map]
  exact exists_congr fun _ => and_congr_right fun _ => eq_comm

/-- The names stand in the order in which they first come. -/
theorem names_ofMembers :
    (ofMembers value (ofName name) ms).names = (ms.map Prod.fst).eraseDups := by
  induction ms using List.reverseRecOn with
  | nil => rfl
  | append_singleton ms m ih =>
    rw [ofMembers_concat, names_insert, ih, List.map_append, List.eraseDups_append]
    by_cases hm : m.1 ∈ ms.map Prod.fst
    · rw [if_pos (List.mem_eraseDups.2 hm)]
      simp [List.removeAll, List.mem_map.1 hm]
    · rw [if_neg (mt List.mem_eraseDups.1 hm)]
      simp [List.removeAll, hm, List.eraseDups_cons]

theorem elements_ofMembers (h : (e.names ++ ms.map Prod.fst).Nodup) :
    (ofMembers value e ms).elements = e.elements ++ ms.map fun m => ⟨m.1, value m.2⟩ := by
  induction ms generalizing e with
  | nil => simp [ofMembers]
  | cons m ms ih =>
    have hm : m.1 ∉ e.names := fun hmem =>
      (List.nodup_append.1 h).2.2 _ hmem _ List.mem_cons_self rfl
    have hinsert : (e.insert m.1 (value m.2)).elements = e.elements ++ [⟨m.1, value m.2⟩] :=
      setIn_of_not_mem hm
    show (ofMembers value (e.insert m.1 (value m.2)) ms).elements = _
    rw [ih, hinsert, List.append_assoc]
    · rfl
    · rw [names_insert, if_neg hm, List.append_assoc]
      exact h

end Members

end Entity

/-- Whether a condition gives a value to a name: it is an equality, and its operand has the
value. -/
inductive Condition.Assigns : Condition → String × Value → Prop where
  | intro {n : String} {x : Operand} {v : Value} (h : x.read = .ok v) :
      Assigns (.compare n .equal x) (n, v)

/-- Why a condition gives no value to a name: it is no equality, or its operand has no value. -/
inductive Condition.Unassignable : Condition → QueryError → Prop where
  | noEquality {c : Condition} (h : ∀ n x, c ≠ .compare n .equal x) :
      Unassignable c (.meaning (.noAssignment c))
  | noValue {n : String} {x : Operand} {e : QueryError} (h : x.read = .error e) :
      Unassignable (.compare n .equal x) e

namespace Entity

section Assignments

variable {e : Entity} {c : Condition} {cs : List Condition} {err : QueryError} {name : String}

/-- The name that a condition gives a value to, and the value. -/
def assignment : Condition → Except QueryError (String × Value)
  | .compare n .equal x => do
    let v ← x.read
    return (n, v)
  | c => .error (.meaning (.noAssignment c))

theorem assignment_eq_ok {m : String × Value} : assignment c = .ok m ↔ c.Assigns m := by
  constructor
  · intro h
    unfold assignment at h
    split at h
    · obtain ⟨v, hv, ⟨⟩⟩ := bind_eq_ok.1 h
      exact .intro hv
    · cases h
  · rintro ⟨h⟩
    exact bind_eq_ok.2 ⟨_, h, rfl⟩

theorem assignment_eq_error : assignment c = .error err ↔ c.Unassignable err := by
  constructor
  · intro h
    unfold assignment at h
    split at h
    · obtain h | ⟨_, _, ⟨⟩⟩ := bind_eq_error.1 h
      exact .noValue h
    · next hc =>
      cases h
      exact .noEquality hc
  · intro h
    cases h with
    | noEquality h =>
      unfold assignment
      split
      · exact absurd rfl (h _ _)
      · rfl
    | noValue h => exact bind_eq_error.2 (Or.inl h)

theorem assign_eq : e.assign c = assignment c >>= fun m => .ok (e.insert m.1 m.2) := by
  unfold assign
  split
  · next n x =>
    show _ = (x.read >>= fun v => pure (n, v)) >>= _
    cases x.read <;> rfl
  · next hc =>
    rw [assignment_eq_error.2 (.noEquality hc)]
    rfl

/-- All assignments are read before the first value is set. -/
theorem ofAssignments_eq : ofAssignments name cs =
    cs.mapM assignment >>= fun ms => .ok (ofMembers id (ofName name) ms) := by
  rw [ofAssignments]
  generalize ofName name = e
  induction cs generalizing e with
  | nil => rfl
  | cons c cs ih =>
    rw [List.foldlM_cons, List.mapM_cons, assign_eq]
    cases assignment c with
    | error => rfl
    | ok m =>
      show cs.foldlM assign (e.insert m.1 m.2) = _
      rw [ih]
      show _ = (cs.mapM assignment >>= fun ms => pure (m :: ms)) >>= _
      cases cs.mapM assignment <;> rfl

theorem ofAssignments_eq_ok : ofAssignments name cs = .ok e ↔
    ∃ ms, List.Forall₂ Condition.Assigns cs ms ∧ e = ofMembers id (ofName name) ms := by
  simp only [ofAssignments_eq, bind_eq_ok, mapM_eq_ok, assignment_eq_ok]
  constructor
  · rintro ⟨ms, hms, ⟨⟩⟩
    exact ⟨ms, hms, rfl⟩
  · rintro ⟨ms, hms, rfl⟩
    exact ⟨ms, hms, rfl⟩

/-- Reading assignments fails as the first condition that is none. -/
theorem ofAssignments_eq_error : ofAssignments name cs = .error err ↔
    ∃ before c after, cs = before ++ c :: after ∧
      (∀ d ∈ before, ∃ m, d.Assigns m) ∧ c.Unassignable err := by
  rw [ofAssignments_eq, bind_eq_error]
  simp only [mapM_eq_error, assignment_eq_ok, assignment_eq_error, reduceCtorEq, and_false,
    exists_false, or_false]

theorem ofAssignments_map {α : Type} {f : α → Condition} {g : α → String × Value} {as : List α}
    (h : ∀ a ∈ as, (f a).Assigns (g a)) :
    ofAssignments name (as.map f) = .ok (ofMembers id (ofName name) (as.map g)) := by
  refine ofAssignments_eq_ok.2 ⟨as.map g, ?_, rfl⟩
  rw [List.forall₂_map_left_iff, List.forall₂_map_right_iff, List.forall₂_same]
  exact h

end Assignments

end Entity

end StoreQuery

import Mathlib.Data.Finset.Card
import StoreQuery.Proofs.Entity.Document

/-! # How records are built

A record starts without fields, from an object or from assignments, and values are added to it one
at a time. Whichever way it was built, it is an ordered map: its names stand in the order in which
they were first added, each with the value that was added last. Assignments are read from left to
right, and the first condition that is none is the error.
-/

namespace StoreQuery

theorem Condition.Assigns.rightUnique : Relator.RightUnique Condition.Assigns := by
  rintro _ _ _ ⟨hm⟩ ⟨hn⟩
  cases hm.symm.trans hn
  rfl

namespace Entity

variable {e : Entity} {ms : List (String × Value)} {n : String}

inductive IsBuilt : Entity → List (String × Value) → Prop where
  | ofName {name : String} : IsBuilt (ofName name) []
  | ofJson {name : String} {members : List (String × Json)} {e : Entity}
      (h : Entity.ofJson name (.object members) = .ok e) :
      IsBuilt e (members.map fun m => (m.1, .ofJson m.2))
  | ofAssignments {name : String} {cs : List Condition} {ms : List (String × Value)} {e : Entity}
      (hms : List.Forall₂ Condition.Assigns cs ms) (h : Entity.ofAssignments name cs = .ok e) :
      IsBuilt e ms
  | insert {e : Entity} {ms : List (String × Value)} {n : String} {v : Value}
      (h : IsBuilt e ms) : IsBuilt (e.insert n v) (ms ++ [(n, v)])

/-- A record is what its additions make of one without fields. -/
theorem IsBuilt.eq_ofMembers (h : e.IsBuilt ms) : e = ofMembers id (Entity.ofName e.name) ms := by
  induction h with
  | ofName => rfl
  | ofJson h =>
    rw [ofJson_object] at h
    cases h
    rw [ofMembers_map, name_ofMembers]
    rfl
  | ofAssignments hms h =>
    obtain ⟨ns, hns, rfl⟩ := ofAssignments_eq_ok.1 h
    rw [Condition.Assigns.rightUnique.forall₂ hms hns, name_ofMembers]
    rfl
  | @insert e ms n v _ ih =>
    rw [ofMembers_concat]
    exact congrArg (fun d : Entity => d.insert n v) ih

/-- An ordered map of what was added to it, seen through everything that reads it. -/
structure IsMapOf (e : Entity) (ms : List (String × Value)) : Prop where
  nodup : e.names.Nodup
  /-- The names stand in the order in which they were first added. -/
  names_eq : e.names = (ms.map Prod.fst).eraseDups
  /-- The value of a name is the one that was added last. -/
  get?_eq : ∀ n, e.get? n = ms.reverse.lookup n
  size_eq : e.size = (ms.map Prod.fst).toFinset.card
  /-- A value is set where its name stands, or comes last, and nothing else changes. -/
  elements_insert : ∀ n v, (e.insert n v).elements =
    if n ∈ e.names then e.elements.map fun x => if x.name = n then ⟨n, v⟩ else x
    else e.elements ++ [⟨n, v⟩]
  /-- The object has the names as keys, each with the document of its value. -/
  toJson_eq : ∃ members, e.toJson = .object members ∧ Json.IsSorted members ∧
    ∀ n, members.lookup n = (e.get? n).map Value.toJson

theorem size_ofMembers (name : String) :
    (ofMembers id (ofName name) ms).size = (ms.map Prod.fst).toFinset.card := by
  have hnodup : (ofMembers id (ofName name) ms).names.Nodup :=
    nodup_names_ofMembers List.nodup_nil
  have hmem : (ofMembers id (ofName name) ms).names.toFinset = (ms.map Prod.fst).toFinset := by
    ext n
    simp only [List.mem_toFinset, mem_names_ofMembers]
  rw [← hmem, List.toFinset_card_of_nodup hnodup, names, List.length_map, size]

theorem isMapOf_ofMembers (name : String) : (ofMembers id (ofName name) ms).IsMapOf ms where
  nodup := nodup_names_ofMembers List.nodup_nil
  names_eq := names_ofMembers
  get?_eq n := by rw [get?_ofMembers_ofName, Option.map_id_fun, id]
  size_eq := size_ofMembers name
  elements_insert n v := by
    split
    · next hn => exact setIn_of_mem (nodup_names_ofMembers List.nodup_nil) hn
    · next hn => exact setIn_of_not_mem hn
  toJson_eq := exists_toJson (nodup_names_ofMembers List.nodup_nil)

/-- However a record is built, it is an ordered map of what was added to it. Assignments make a
record if all of them give a name a value, the one that adding these from left to right makes;
otherwise the first condition that gives none is the error. -/
theorem records_are_maps (h : e.IsBuilt ms) (name : String) (cs : List Condition) :
    e.IsMapOf ms ∧
      (∀ d, ofAssignments name cs = .ok d ↔ ∃ ns, List.Forall₂ Condition.Assigns cs ns ∧
        d = ns.foldl (fun d m => d.insert m.1 m.2) (ofName name)) ∧
      (∀ err, ofAssignments name cs = .error err ↔ ∃ before c after,
        cs = before ++ c :: after ∧ (∀ d ∈ before, ∃ m, d.Assigns m) ∧ c.Unassignable err) := by
  refine ⟨?_, fun d => ofAssignments_eq_ok, fun err => ofAssignments_eq_error⟩
  rw [h.eq_ofMembers]
  exact isMapOf_ofMembers e.name

theorem records_are_maps_repeated :
    let c (n : String) (v : Value) : Condition := .compare n .equal (.literal v)
    let cs := [c "b" (.int 1), c "a" (.text "x"), c "b" .null]
    ∃ e, ofAssignments "T" cs = .ok e ∧
      (e.insert "a" (.bool true)).IsMapOf
        [("b", .int 1), ("a", .text "x"), ("b", .null), ("a", .bool true)] ∧
      ofAssignments "T" (cs ++ [c "d" (.int 2), .not (c "a" .null), .not (c "b" .null)]) =
        .error (.meaning (.noAssignment (.not (c "a" .null)))) := by
  intro c cs
  have hc : ∀ n v, (c n v).Assigns (n, v) := fun n v => .intro rfl
  have hcs : List.Forall₂ Condition.Assigns cs [("b", .int 1), ("a", .text "x"), ("b", .null)] :=
    .cons (hc ..) (.cons (hc ..) (.cons (hc ..) .nil))
  have hbuilt : (ofName "T").IsBuilt [] := .ofName
  have hok := ((records_are_maps hbuilt "T" cs).2.1 _).2 ⟨_, hcs, rfl⟩
  obtain ⟨hmap, -, herror⟩ := records_are_maps (.insert (n := "a") (v := .bool true)
    (.ofAssignments hcs hok)) "T" (cs ++ [c "d" (.int 2), .not (c "a" .null), .not (c "b" .null)])
  refine ⟨_, hok, hmap, (herror _).2 ?_⟩
  refine ⟨cs ++ [c "d" (.int 2)], .not (c "a" .null), [.not (c "b" .null)], rfl, ?_, ?_⟩
  · simp only [cs, List.cons_append, List.nil_append, List.forall_mem_cons]
    exact ⟨⟨_, hc ..⟩, ⟨_, hc ..⟩, ⟨_, hc ..⟩, ⟨_, hc ..⟩, List.forall_mem_nil _⟩
  · exact .noEquality nofun

end Entity

end StoreQuery

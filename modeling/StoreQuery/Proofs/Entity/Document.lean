import StoreQuery.Proofs.Entity
import StoreQuery.Proofs.Query.Native

/-! # Records as documents

A record is an object whose members are its fields, sorted by their names. An object that is stored
as a record has its keys as names, and comes back with its values as they were, except for integers
beyond the signed words: outside of nested objects they come back as floating-point numbers.
-/

namespace StoreQuery

namespace Json

section Members

variable {k n : String} {j : Json} {ms : List (String × Json)}

theorem lookup_insert : (insert k j ms).lookup n = if n = k then some j else ms.lookup n := by
  induction ms with
  | nil => by_cases h : n = k <;> simp [insert, List.lookup_cons, h, beq_eq_false_iff_ne.2]
  | cons m ms ih =>
    obtain ⟨l, i⟩ := m
    rw [insert]
    split
    · by_cases h : n = k <;> simp [List.lookup_cons, h, beq_eq_false_iff_ne.2]
    · split
      · next hkl =>
        subst hkl
        by_cases h : n = k <;> simp [List.lookup_cons, h, beq_eq_false_iff_ne.2]
      · next hkl =>
        by_cases h : n = l
        · simp [h, Ne.symm hkl]
        · simp [List.lookup_cons, beq_eq_false_iff_ne.2 h, ih]

theorem IsSorted.nodup_keys (h : IsSorted ms) : (ms.map Prod.fst).Nodup :=
  List.pairwise_map.2 (h.imp String.ne_of_lt)

theorem IsSorted.map (h : IsSorted ms) (f : Json → Json) :
    IsSorted (ms.map fun m => (m.1, f m.2)) :=
  List.pairwise_map.2 h

theorem exists_members (ms : List (String × Json)) :
    ∃ sorted, ofMembers ms = .object sorted ∧ IsSorted sorted ∧
      ∀ n, sorted.lookup n = ms.reverse.lookup n := by
  have hfold : ∀ others : List (String × Json), IsSorted others →
      IsSorted (ms.foldl (fun sorted m => insert m.1 m.2 sorted) others) ∧
        ∀ n, (ms.foldl (fun sorted m => insert m.1 m.2 sorted) others).lookup n =
          (ms.reverse.lookup n).or (others.lookup n) := by
    induction ms with
    | nil => exact fun _ hsorted => ⟨hsorted, fun _ => rfl⟩
    | cons m ms ih =>
      intro others hsorted
      obtain ⟨hfold, hlookup⟩ := ih (insert m.1 m.2 others) hsorted.insert
      refine ⟨hfold, fun n => (hlookup n).trans ?_⟩
      rw [lookup_reverse_cons, lookup_insert]
      cases ms.reverse.lookup n <;> by_cases h : n = m.1 <;> simp [h]
  obtain ⟨hsorted, hlookup⟩ := hfold [] .nil
  exact ⟨_, rfl, hsorted, fun n => (hlookup n).trans (by simp)⟩

end Members

/-- What comes back of a document that is stored as a value: an integer beyond the signed words as
the nearest floating-point number, and everything else, objects with all that is in them, as it
was. -/
inductive Stored : Json → Json → Prop where
  | null : Stored .null .null
  | bool {b : Bool} : Stored (.bool b) (.bool b)
  | text {s : String} : Stored (.text s) (.text s)
  | int {n : Int64} : Stored (.ofInt64 n) (.ofInt64 n)
  | large {n : Json.Integer} (h : 0x8000000000000000 ≤ n.val) :
      Stored (.number (.integer n)) (.ofFinite (.ofInt n.val))
  | float {x : Number.Binary64.Finite} : Stored (.ofFinite x) (.ofFinite x)
  | array {js ks : List Json} (h : List.Forall₂ Stored js ks) : Stored (.array js) (.array ks)
  | object {members : List (String × Json)} : Stored (.object members) (.object members)

mutual

/-- Whether the integers of a document are signed words, those in objects not being looked at. -/
def fitsWords : Json → Bool
  | number (.integer n) => n.val < 0x8000000000000000
  | array items => allFitWords items
  | _ => true

def allFitWords : List Json → Bool
  | [] => true
  | j :: js => fitsWords j && allFitWords js

end

theorem fitsWords_ofInt64 (n : Int64) : (ofInt64 n).fitsWords = true :=
  decide_eq_true n.toInt_lt

theorem fitsWords_large {n : Json.Integer} (h : 0x8000000000000000 ≤ n.val) :
    (number (.integer n)).fitsWords = false :=
  decide_eq_false (Int.not_lt.2 h)

mutual

/-- What the value of a document is stored as is what comes back of the document. -/
theorem stored_iff : ∀ {j k : Json}, j.Stored k ↔ k = (Value.ofJson j).toJson
  | .null, k | .bool b, k | .text s, k | .object ms, k | .number (.float x), k => by
    constructor
    · rintro ⟨⟩
      rfl
    · rintro rfl
      constructor
  | .number (.integer n), k => by
    constructor
    · intro h
      cases h with
      | int => exact (congrArg Value.toJson (Value.ofJson_ofInt64 _)).symm
      | large h => exact (congrArg Value.toJson (Value.ofJson_large h)).symm
    · rintro rfl
      rcases n.ofInt64_or_large with ⟨m, rfl⟩ | h
      · exact Value.ofJson_ofInt64 m ▸ .int
      · exact Value.ofJson_large h ▸ .large h
  | .array js, k => by
    constructor
    · rintro (_ | _ | _ | _ | _ | _ | h)
      exact congrArg array (storedItems_iff.1 h)
    · rintro rfl
      exact .array (storedItems_iff.2 rfl)

theorem storedItems_iff : ∀ {js ks : List Json},
    List.Forall₂ Stored js ks ↔ ks = Value.itemsToJson (Value.ofJsonItems js)
  | [], ks => List.forall₂_nil_left_iff
  | j :: js, ks => by
    constructor
    · rintro (_ | ⟨hj, hjs⟩)
      exact congrArg₂ List.cons (stored_iff.1 hj) (storedItems_iff.1 hjs)
    · rintro rfl
      exact .cons (stored_iff.2 rfl) (storedItems_iff.2 rfl)

end

mutual

theorem toJson_ofJson : ∀ {j : Json}, j.fitsWords = true → (Value.ofJson j).toJson = j
  | .null, _ | .bool _, _ | .text _, _ | .object _, _ | .number (.float _), _ => rfl
  | .number (.integer n), h => by
    rcases n.ofInt64_or_large with ⟨m, rfl⟩ | hlarge
    · exact congrArg Value.toJson (Value.ofJson_ofInt64 m)
    · rw [fitsWords_large hlarge] at h
      cases h
  | .array _, h => congrArg array (itemsToJson_ofJsonItems h)

theorem itemsToJson_ofJsonItems : ∀ {js : List Json}, allFitWords js = true →
    Value.itemsToJson (Value.ofJsonItems js) = js
  | [], _ => rfl
  | _ :: _, h => by
    obtain ⟨hj, hjs⟩ := Bool.and_eq_true_iff.1 h
    exact congrArg₂ List.cons (toJson_ofJson hj) (itemsToJson_ofJsonItems hjs)

end

mutual

theorem fitsWords_of_same : ∀ {j : Json}, (Value.ofJson j).toJson.same j = true →
    j.fitsWords = true
  | .null, _ | .bool _, _ | .text _, _ | .object _, _ | .number (.float _), _ => rfl
  | .number (.integer n), h => by
    rcases n.ofInt64_or_large with ⟨m, rfl⟩ | hlarge
    · exact fitsWords_ofInt64 m
    · rw [Value.ofJson_large hlarge] at h
      cases h
  | .array js, h => allFitWords_of_same h

theorem allFitWords_of_same : ∀ {js : List Json},
    sameItems (Value.itemsToJson (Value.ofJsonItems js)) js = true → allFitWords js = true
  | [], _ => rfl
  | _ :: _, h => by
    obtain ⟨hj, hjs⟩ := Bool.and_eq_true_iff.1 h
    exact Bool.and_eq_true_iff.2 ⟨fitsWords_of_same hj, allFitWords_of_same hjs⟩

end

end Json

namespace Entity

open Json

variable {members : List (String × Json)}

theorem exists_toJson {e : Entity} (h : e.names.Nodup) :
    ∃ sorted, e.toJson = .object sorted ∧ IsSorted sorted ∧
      ∀ n, sorted.lookup n = (e.get? n).map Value.toJson := by
  obtain ⟨sorted, hobject, hsorted, hlookup⟩ :=
    exists_members (e.elements.map fun x => (x.name, x.value.toJson))
  refine ⟨sorted, hobject, hsorted, fun n => ?_⟩
  rw [hlookup, lookup_reverse (by simpa [names, Function.comp_def] using h), ← lookup_fields,
    fields]
  induction e.elements with
  | nil => rfl
  | cons x xs ih => cases hx : n == x.name <;> simp [List.lookup_cons, hx, ih]

theorem ofJson_object (name : String) (members : List (String × Json)) :
    ofJson name (.object members) = .ok (ofMembers Value.ofJson (ofName name) members) :=
  rfl

theorem toJson_ofMembers (h : IsSorted members) (name : String) :
    let e := ofMembers Value.ofJson (ofName name) members
    e.names = members.map Prod.fst ∧
      e.toJson = .object (members.map fun m => (m.1, (Value.ofJson m.2).toJson)) := by
  intro e
  have helements : e.elements = members.map fun m => ⟨m.1, .ofJson m.2⟩ :=
    elements_ofMembers h.nodup_keys
  constructor
  · simp [names, helements]
  · rw [toJson, helements, List.map_map]
    exact ofMembers_of_isSorted (h.map fun j => (Value.ofJson j).toJson)

theorem fitsWords_of_sameMembers (h : sameMembers
    (members.map fun m => (m.1, (Value.ofJson m.2).toJson)) members = true) :
    ∀ m ∈ members, m.2.fitsWords = true := by
  induction members with
  | nil => nofun
  | cons m members ih =>
    simp only [List.map_cons, sameMembers, Bool.and_eq_true] at h
    exact List.forall_mem_cons.2 ⟨fitsWords_of_same h.1.2, ih h.2⟩

end Entity

open Json in
/-- An object is stored as a record with its keys as names, in order. What comes back is the object
of what comes back of its members, and it is the object itself exactly if no member holds an integer
beyond the signed words outside of a nested object. The same holds of the value of a document. -/
theorem documents_stored (name : String) (j : Json) {members : List (String × Json)}
    (h : IsSorted members) :
    (∃ e kept, Entity.ofJson name (.object members) = .ok e ∧ e.names = members.map Prod.fst ∧
        e.toJson = .object kept ∧
        List.Forall₂ (fun m k => m.1 = k.1 ∧ m.2.Stored k.2) members kept ∧
        ((∀ m ∈ members, m.2.fitsWords = true) → e.toJson = .object members) ∧
        (∀ m ∈ members, m.2.fitsWords = false → e.toJson.same (.object members) = false)) ∧
      (∀ k, (Value.ofJson j).toJson = k ↔ j.Stored k) ∧
      (j.fitsWords = true → (Value.ofJson j).toJson = j) ∧
      (j.fitsWords = false → (Value.ofJson j).toJson.same j = false) := by
  obtain ⟨hnames, hjson⟩ := Entity.toJson_ofMembers h name
  refine ⟨⟨_, _, Entity.ofJson_object name members, hnames, hjson, ?_, ?_, ?_⟩, ?_, toJson_ofJson,
    ?_⟩
  · rw [List.forall₂_map_right_iff, List.forall₂_same]
    exact fun m _ => ⟨rfl, stored_iff.2 rfl⟩
  · intro hfits
    rw [hjson, List.map_congr_left (g := id) fun m hm => by rw [toJson_ofJson (hfits m hm)]; rfl,
      List.map_id]
  · intro m hm hlost
    rw [← Bool.not_eq_true, hjson]
    intro hsame
    rw [Entity.fitsWords_of_sameMembers hsame m hm] at hlost
    cases hlost
  · exact fun k => eq_comm.trans stored_iff.symm
  · intro hlost
    rw [← Bool.not_eq_true]
    intro hsame
    rw [fitsWords_of_same hsame] at hlost
    cases hlost

open Json in
theorem documents_stored_nested :
    let large : Json := .number (.integer ⟨0x8000000000000000, by decide, by decide⟩)
    let nested : Json := .object [("k", large)]
    let members := [("a", .array [.null, large, nested]), ("b", nested)]
    let rounded : Json := .ofFinite (.ofInt 0x8000000000000000)
    IsSorted members ∧ ∃ e, Entity.ofJson "T" (.object members) = .ok e ∧ e.names = ["a", "b"] ∧
      e.toJson = .object [("a", .array [.null, rounded, nested]), ("b", nested)] ∧
      e.toJson.same (.object members) = false ∧ (Value.ofJson nested).toJson = nested := by
  intro large nested members rounded
  have hlt : "a" < "b" := by decide
  have hsorted : IsSorted members := List.pairwise_pair.2 hlt
  obtain ⟨⟨e, kept, he, hnames, hjson, hkept, -, hlost⟩, -, hfits, -⟩ :=
    documents_stored "T" nested hsorted
  have hlarge : (Json.array [.null, large, nested]).fitsWords = false := rfl
  obtain ⟨⟨_, a⟩, _, ⟨⟨⟩, ha⟩, hrest, rfl⟩ := List.forall₂_cons_left_iff.1 hkept
  obtain ⟨⟨_, b⟩, _, ⟨⟨⟩, hb⟩, hnil, rfl⟩ := List.forall₂_cons_left_iff.1 hrest
  obtain rfl := List.forall₂_nil_left_iff.1 hnil
  obtain rfl : a = .array [.null, rounded, nested] := stored_iff.1 ha
  obtain rfl : b = nested := stored_iff.1 hb
  exact ⟨hsorted, e, he, hnames, hjson, hlost _ List.mem_cons_self hlarge, hfits rfl⟩

open Json in
/-- Not every object comes back: an integer beyond the signed words is lost. -/
theorem not_every_document_kept :
    ¬∀ (name : String) (members : List (String × Json)), IsSorted members →
      ∃ e, Entity.ofJson name (.object members) = .ok e ∧ e.names = members.map Prod.fst ∧
        e.toJson.same (.object members) = true := by
  intro h
  let large : Json := .number (.integer ⟨0xFFFFFFFFFFFFFFFF, by decide, by decide⟩)
  obtain ⟨e, he, -, hsame⟩ := h "T" [("a", large)] (List.pairwise_singleton ..)
  cases he
  cases hsame

end StoreQuery

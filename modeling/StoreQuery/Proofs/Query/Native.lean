import StoreQuery.Proofs.Query.Choices

/-! # Native values

A document that is no object has a native form: a scalar, or a list of native forms. A value is
made native along two ways, through the operand that it becomes in a statement and through the
document that it is stored as. Where all numbers are finite, both ways replace every document
outside objects that is none itself, and change nothing else.
-/

namespace StoreQuery

theorem Json.Integer.ofInt64_or_large (n : Integer) :
    (∃ m : Int64, n = .ofInt64 m) ∨ 0x8000000000000000 ≤ n.val := by
  rcases Int.lt_or_le n.val 0x8000000000000000 with h | h
  · refine .inl ⟨.ofInt n.val, ?_⟩
    have hval : (Int64.ofInt n.val).toInt = n.val := Int64.toInt_ofInt_of_le n.lower h
    cases n
    simp only [ofInt64, hval]
  · exact .inr h

namespace Value

/-- The native form of a value: the documents in it become values of their own, but for objects,
which are kept with all that is in them. An integer beyond the signed words becomes the nearest
floating-point number. -/
inductive Native : Value → Value → Prop
  | documentNull : Native (.json .null) .null
  | documentBool {b : Bool} : Native (.json (.bool b)) (.bool b)
  | documentText {s : String} : Native (.json (.text s)) (.text s)
  | documentInt {n : Int64} : Native (.json (.ofInt64 n)) (.int n)
  | documentLarge {n : Json.Integer} (h : 0x8000000000000000 ≤ n.val) :
      Native (.json (.number (.integer n))) (.float (.finite (.ofInt n.val)))
  | documentFloat {x : Number.Binary64.Finite} :
      Native (.json (.ofFinite x)) (.float (.finite x))
  | documentList {js : List Json} {ws : List Value}
      (h : List.Forall₂ (fun j w => Native (.json j) w) js ws) :
      Native (.json (.array js)) (.array ws)
  | object {members : List (String × Json)} :
      Native (.json (.object members)) (.json (.object members))
  | scalar {v : Value} (h : v.IsScalar) : Native v v
  | list {vs ws : List Value} (h : List.Forall₂ Native vs ws) : Native (.array vs) (.array ws)

mutual

/-- Whether all documents of a value are objects. -/
def isNative : Value → Bool
  | json (.object _) => true
  | json _ => false
  | array items => areNative items
  | _ => true

def areNative : List Value → Bool
  | [] => true
  | v :: vs => isNative v && areNative vs

end

mutual

/-- The native form of a value, and of what is no finite number the value itself. -/
def native : Value → Value
  | json j => ofJson j
  | array items => array (nativeItems items)
  | v => v

def nativeItems : List Value → List Value
  | [] => []
  | v :: vs => native v :: nativeItems vs

end

section Documents

theorem ofJson_ofInt64 (n : Int64) : ofJson (.ofInt64 n) = .int n := by
  simp only [Json.ofInt64, ofJson, Json.Integer.toInt64?_ofInt64]

theorem ofJson_large {n : Json.Integer} (h : 0x8000000000000000 ≤ n.val) :
    ofJson (.number (.integer n)) = .float (.finite (.ofInt n.val)) := by
  simp only [ofJson, Json.Integer.toInt64?, if_neg (Int.not_lt.2 h)]

mutual

theorem isNative_ofJson : ∀ j : Json, (ofJson j).isNative = true
  | .null | .bool _ | .text _ | .object _ | .number (.float _) => rfl
  | .number (.integer n) => by
    rcases n.ofInt64_or_large with ⟨m, rfl⟩ | h
    · exact congrArg isNative (ofJson_ofInt64 m)
    · exact congrArg isNative (ofJson_large h)
  | .array js => areNative_ofJsonItems js

theorem areNative_ofJsonItems : ∀ js : List Json, areNative (ofJsonItems js) = true
  | [] => rfl
  | j :: js => Bool.and_eq_true_iff.2 ⟨isNative_ofJson j, areNative_ofJsonItems js⟩

end

mutual

theorem isFinite_ofJson : ∀ j : Json, (ofJson j).isFinite = true
  | .null | .bool _ | .text _ | .object _ | .number (.float _) => rfl
  | .number (.integer n) => by
    rcases n.ofInt64_or_large with ⟨m, rfl⟩ | h
    · exact congrArg isFinite (ofJson_ofInt64 m)
    · exact congrArg isFinite (ofJson_large h)
  | .array js => areFinite_ofJsonItems js

theorem areFinite_ofJsonItems : ∀ js : List Json, areFinite (ofJsonItems js) = true
  | [] => rfl
  | j :: js => Bool.and_eq_true_iff.2 ⟨isFinite_ofJson j, areFinite_ofJsonItems js⟩

end

mutual

/-- The value of a document is its native form, and its only one. -/
theorem native_json_iff : ∀ {j : Json} {w : Value}, (json j).Native w ↔ w = ofJson j
  | .null, w | .bool b, w | .text s, w | .object ms, w | .number (.float x), w => by
    constructor
    · intro h
      cases h with
      | scalar h => cases h
      | _ => rfl
    · rintro rfl
      constructor
  | .number (.integer n), w => by
    constructor
    · intro h
      cases h with
      | scalar h => cases h
      | documentInt => exact (ofJson_ofInt64 _).symm
      | documentLarge h => exact (ofJson_large h).symm
    · rintro rfl
      rcases n.ofInt64_or_large with ⟨m, rfl⟩ | h
      · exact (ofJson_ofInt64 m).symm ▸ .documentInt
      · exact ofJson_large h ▸ .documentLarge h
  | .array js, w => by
    constructor
    · intro h
      cases h with
      | scalar h => cases h
      | documentList h => exact congrArg array (native_items_iff.1 h)
    · rintro rfl
      exact .documentList (native_items_iff.2 rfl)

theorem native_items_iff : ∀ {js : List Json} {ws : List Value},
    List.Forall₂ (fun j w => Native (.json j) w) js ws ↔ ws = ofJsonItems js
  | [], ws => List.forall₂_nil_left_iff
  | j :: js, ws => by
    constructor
    · rintro (_ | ⟨hj, hjs⟩)
      exact congrArg₂ List.cons (native_json_iff.1 hj) (native_items_iff.1 hjs)
    · rintro rfl
      exact .cons (native_json_iff.2 rfl) (native_items_iff.2 rfl)

end

end Documents

section Values

mutual

theorem native_iff : ∀ {v w : Value}, v.isFinite = true → (v.Native w ↔ w = ofJson v.toJson)
  | .null, w, _ | .bool b, w, _ | .text s, w, _ | .float (.finite x), w, _ => by
    constructor
    · intro h
      cases h
      rfl
    · rintro rfl
      exact .scalar trivial
  | .int n, w, _ => by
    rw [toJson, ofJson_ofInt64]
    constructor
    · intro h
      cases h
      rfl
    · rintro rfl
      exact .scalar trivial
  | .json j, w, _ => native_json_iff
  | .array vs, w, hv => by
    constructor
    · intro h
      cases h with
      | scalar h => cases h
      | list h => exact congrArg array ((native_all_iff hv).1 h)
    · rintro rfl
      exact .list ((native_all_iff hv).2 rfl)

theorem native_all_iff : ∀ {vs ws : List Value}, areFinite vs = true →
    (List.Forall₂ Native vs ws ↔ ws = ofJsonItems (itemsToJson vs))
  | [], ws, _ => List.forall₂_nil_left_iff
  | v :: vs, ws, h => by
    obtain ⟨hv, hvs⟩ := Bool.and_eq_true_iff.1 h
    constructor
    · rintro (_ | ⟨hw, hws⟩)
      exact congrArg₂ List.cons ((native_iff hv).1 hw) ((native_all_iff hvs).1 hws)
    · rintro rfl
      exact .cons ((native_iff hv).2 rfl) ((native_all_iff hvs).2 rfl)

end

mutual

theorem ofJson_toJson_of_isNative : ∀ {v : Value}, v.isFinite = true → v.isNative = true →
    ofJson v.toJson = v
  | .null, _, _ | .bool _, _, _ | .text _, _, _ | .float (.finite _), _, _ => rfl
  | .json j, _, hn => by
    cases j with
    | object => rfl
    | _ => cases hn
  | .int n, _, _ => ofJson_ofInt64 n
  | .array _, hv, hn => congrArg array (ofJsonItems_itemsToJson_of_areNative hv hn)

theorem ofJsonItems_itemsToJson_of_areNative : ∀ {vs : List Value}, areFinite vs = true →
    areNative vs = true → ofJsonItems (itemsToJson vs) = vs
  | [], _, _ => rfl
  | v :: vs, h, hn => by
    obtain ⟨hv, hvs⟩ := Bool.and_eq_true_iff.1 h
    obtain ⟨hnv, hnvs⟩ := Bool.and_eq_true_iff.1 hn
    exact congrArg₂ List.cons (ofJson_toJson_of_isNative hv hnv)
      (ofJsonItems_itemsToJson_of_areNative hvs hnvs)

end

theorem ofJson_toJson_eq_iff {v : Value} (h : v.isFinite = true) :
    ofJson v.toJson = v ↔ v.isNative = true := by
  refine ⟨?_, ofJson_toJson_of_isNative h⟩
  intro heq
  rw [← heq]
  exact isNative_ofJson v.toJson

mutual

theorem native_of_isNative : ∀ {v : Value}, v.isNative = true → v.native = v
  | .null, _ | .bool _, _ | .int _, _ | .float _, _ | .text _, _ => rfl
  | .json j, h => by
    cases j with
    | object => rfl
    | _ => cases h
  | .array _, h => congrArg array (nativeItems_of_areNative h)

theorem nativeItems_of_areNative : ∀ {vs : List Value}, areNative vs = true → nativeItems vs = vs
  | [], _ => rfl
  | v :: vs, h => by
    obtain ⟨hv, hvs⟩ := Bool.and_eq_true_iff.1 h
    exact congrArg₂ List.cons (native_of_isNative hv) (nativeItems_of_areNative hvs)

end

end Values

end Value

mutual

theorem Operand.read_ofValue_eq_native : ∀ v : Value, (Operand.ofValue v).read = .ok v.native
  | .null | .bool _ | .int _ | .float _ | .text _ => rfl
  | .json j => Operand.read_ofJson j
  | .array items => by
    rw [Operand.ofValue, Operand.read, Operand.readItems_ofValues items]
    rfl

theorem Operand.readItems_ofValues : ∀ vs : List Value,
    Operand.readItems (Operand.ofValues vs) = .ok (Value.nativeItems vs)
  | [] => rfl
  | v :: vs => by
    rw [Operand.ofValues, Operand.readItems, Operand.read_ofValue_eq_native v,
      Operand.readItems_ofValues vs]
    rfl

end

mutual

/-- A finite value and the document that it is stored as become the same operand. -/
theorem Operand.ofValue_eq_ofJson : ∀ {v : Value}, v.isFinite = true →
    Operand.ofValue v = .ofJson v.toJson
  | .null, _ | .bool _, _ | .text _, _ | .float (.finite _), _ | .json _, _ => rfl
  | .int n, _ => congrArg Operand.literal (Value.ofJson_ofInt64 n).symm
  | .array _, h => congrArg Operand.list (Operand.ofValues_eq_ofJsonItems h)

theorem Operand.ofValues_eq_ofJsonItems : ∀ {vs : List Value}, Value.areFinite vs = true →
    Operand.ofValues vs = Operand.ofJsonItems (Value.itemsToJson vs)
  | [], _ => rfl
  | v :: vs, h => by
    obtain ⟨hv, hvs⟩ := Bool.and_eq_true_iff.1 h
    exact congrArg₂ List.cons (Operand.ofValue_eq_ofJson hv) (Operand.ofValues_eq_ofJsonItems hvs)

end

theorem Operand.read_ofValue {v : Value} (h : v.isFinite = true) :
    (Operand.ofValue v).read = .ok (.ofJson v.toJson) := by
  rw [Operand.ofValue_eq_ofJson h, Operand.read_ofJson]

/-- A finite value is read back from its operand as the value that it has through a document. That
is its native form, and its only one, which both ways keep; the value is that form already if and
only if all its documents are objects. -/
theorem conversions_agree {v : Value} (h : v.isFinite = true) :
    ∃ w, (Operand.ofValue v).read = .ok w ∧ Value.ofJson v.toJson = w ∧
      (∀ u, v.Native u ↔ u = w) ∧
      (Operand.ofValue w).read = .ok w ∧ Value.ofJson w.toJson = w ∧
      (w = v ↔ v.isNative = true) := by
  have hkept : Value.ofJson (Value.ofJson v.toJson).toJson = .ofJson v.toJson :=
    Value.ofJson_toJson_of_isNative (Value.isFinite_ofJson _) (Value.isNative_ofJson _)
  refine ⟨.ofJson v.toJson, Operand.read_ofValue h, rfl, fun u => Value.native_iff h, ?_, hkept,
    Value.ofJson_toJson_eq_iff h⟩
  rw [Operand.read_ofValue (Value.isFinite_ofJson _), hkept]

theorem conversions_agree_nested :
    let large : Json.Integer := ⟨0x8000000000000000, by decide, by decide⟩
    let members := [("k", Json.array [.null])]
    let zero := Value.float (.finite (.zero true))
    let v := Value.array [.json (.array [.ofInt64 3, .number (.integer large), .object members]),
      .array [.json (.text "x"), zero]]
    let w := Value.array [.array [.int 3, .float (.finite (.ofInt 0x8000000000000000)),
      .json (.object members)], .array [.text "x", zero]]
    v.isFinite = true ∧ (Operand.ofValue v).read = .ok w ∧ Value.ofJson v.toJson = w ∧
      (∀ u, v.Native u ↔ u = w) ∧
      (Operand.ofValue w).read = .ok w ∧ Value.ofJson w.toJson = w ∧
      w ≠ v ∧ v.isNative = false := by
  intro large members zero v w
  obtain ⟨_, hread, rfl, hnative, hread', hjson', hiff⟩ := conversions_agree (v := v) rfl
  have hv : v.isNative = false := rfl
  refine ⟨rfl, hread, rfl, hnative, hread', hjson', fun heq => ?_, hv⟩
  rw [hiff.1 heq] at hv
  cases hv

/-- What is no finite number becomes null in a document, and is kept by an operand. -/
example : (Operand.ofValue (.float .nan)).read = .ok (.float .nan) ∧
    Value.ofJson (Value.float .nan).toJson = .null :=
  ⟨rfl, rfl⟩

end StoreQuery

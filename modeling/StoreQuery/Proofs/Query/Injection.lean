import StoreQuery.Proofs.Query.Binding
import StoreQuery.Proofs.Query.Canonical

/-! # Bound values inject no query text

A text can give every value that holds no document, no empty list and only finite numbers. Put in
the place of a parameter of a statement that was read, such a value leaves a statement that can be
read, so its canonical text stands for nothing else, whatever the texts among its values contain.
-/

namespace StoreQuery

mutual

/-- Whether a value is built of null, truth values, integers, finite numbers and texts, by lists
with items. -/
def Value.IsPlain : Value → Prop
  | .null | .bool _ | .int _ | .text _ | .float (.finite _) => True
  | .array items => items ≠ [] ∧ Value.AllPlain items
  | _ => False

def Value.AllPlain : List Value → Prop
  | [] => True
  | v :: vs => v.IsPlain ∧ Value.AllPlain vs

end

mutual

theorem Operand.readable_ofValue : ∀ v : Value, v.IsPlain → (Operand.ofValue v).Readable
  | .null, _ | .bool _, _ | .int _, _ | .text _, _ | .float (.finite _), _ => trivial
  | .array [], h => absurd rfl h.1
  | .array (v :: vs), h => by
    obtain ⟨-, hv, hvs⟩ := h
    constructor
    · exact List.cons_ne_nil _ _
    · exact ⟨Operand.readable_ofValue v hv, Operand.allReadable_ofValues vs hvs⟩

theorem Operand.allReadable_ofValues :
    ∀ vs : List Value, Value.AllPlain vs → Operand.AllReadable (Operand.ofValues vs)
  | [], _ => trivial
  | v :: vs, h => ⟨Operand.readable_ofValue v h.1, Operand.allReadable_ofValues vs h.2⟩

end

/-- An operand that a text can still give when the first one is of a text, and that is the same
document when the first one is a document. -/
def Operand.KeepsReadable (v w : Operand) : Prop :=
  (v.Readable → w.Readable) ∧ ∀ j, v = .document j → w = .document j

/-- A condition with the same operator that a text can still give when the first one is of a
text. -/
def Condition.KeepsReadable (c d : Condition) : Prop :=
  d.operator = c.operator ∧ (c.Readable → d.Readable)

theorem Condition.isAssignment_iff {c : Condition} :
    c.IsAssignment ↔ c.operator = .comparison .equal ∧ c.Readable := by
  constructor
  · rintro ⟨n, v, rfl, hn, hv⟩
    exact ⟨rfl, hn, hv⟩
  · rintro ⟨ho, hc⟩
    cases c <;> cases ho
    exact ⟨_, _, rfl, hc.1, hc.2⟩

theorem ne_nil_of_forall₂ {α β : Type} {R : α → β → Prop} {xs : List α} {ys : List β}
    (h : List.Forall₂ R xs ys) (hxs : xs ≠ []) : ys ≠ [] := by
  cases h with
  | nil => exact absurd rfl hxs
  | cons => exact List.cons_ne_nil _ _

theorem closed_keepsReadable {p : Parameters} {names : List String}
    (hp : ∀ n ∈ names, ∀ v, p.value? n = some v → v.IsPlain) :
    ClosedUnderBinding p names Operand.KeepsReadable Condition.KeepsReadable
      (fun s t => s.Readable → t.Readable) where
  literal _ := ⟨id, nofun⟩
  document _ := ⟨id, fun _ => id⟩
  parameter n hn v hv := ⟨fun _ => Operand.readable_ofValue v (hp n hn v hv), nofun⟩
  list vs ws h := by
    refine ⟨?_, nofun⟩
    rintro ⟨hne, hall⟩
    rw [Operand.allReadable_iff] at hall
    have hws := forall_mem_of_forall₂ (fun v w hvw => hvw.1) h hall
    exact ⟨ne_nil_of_forall₂ h hne, Operand.allReadable_iff.2 hws⟩
  nested _ _ h := ⟨h, nofun⟩
  compare _ _ _ _ h := ⟨rfl, fun hc => ⟨hc.1, h.1 hc.2⟩⟩
  within _ _ _ h hchoices := ⟨rfl, fun hc => ⟨hc.1, hchoices, h.1 hc.2.2⟩⟩
  between _ _ _ _ _ h h' := ⟨rfl, fun hc => ⟨hc.1, h.1 hc.2.1, h'.1 hc.2.2⟩⟩
  parts o cs ds h := by
    constructor
    · cases o <;> rfl
    · intro hcs
      obtain ⟨hlen, hne, hall⟩ := Condition.readable_ofParts.1 hcs
      apply Condition.readable_ofParts.2
      refine ⟨h.length_eq ▸ hlen, forall_mem_of_forall₂ ?_ h hne, ?_⟩
      · rintro c d ⟨hoperator, -⟩ hc
        rwa [hoperator]
      · exact forall_mem_of_forall₂ (fun c d hcd => hcd.2) h hall
  not _ _ h := ⟨rfl, h.2⟩
  select _ _ _ _ _ _ _ h := by
    rintro ⟨hentity, hfields, hcondition, hrest⟩
    refine ⟨hentity, hfields, ?_, hrest⟩
    cases h with
    | none => trivial
    | some h => exact h.2 hcondition

theorem readable_of_payload_rel {x y : Payload}
    (h : Payload.Rel Operand.KeepsReadable Condition.KeepsReadable x y)
    (hx : ∀ n, x ≠ .document (.parameter n)) (hreadable : x.Readable) : y.Readable := by
  cases h with
  | assignments h =>
    obtain ⟨hne, hall⟩ := hreadable
    refine ⟨ne_nil_of_forall₂ h hne, forall_mem_of_forall₂ ?_ h hall⟩
    intro c d hcd hc
    rw [Condition.isAssignment_iff] at hc ⊢
    exact ⟨hcd.1.trans hc.1, hcd.2 hc.2⟩
  | document h =>
    obtain ⟨⟨j, rfl⟩ | ⟨n, rfl⟩, hv⟩ := hreadable
    · obtain rfl := h.2 j rfl
      exact ⟨Or.inl ⟨j, rfl⟩, hv⟩
    · exact absurd rfl (hx n)

/-- Where no parameter is a whole payload, a readable statement stays readable when plain values are
put in the places of its parameters. -/
theorem Statement.Readable.bind {s t : Statement} {p : Parameters} (hs : s.Readable)
    (hp : ∀ n ∈ s.parameters, ∀ v, p.value? n = some v → v.IsPlain)
    (hpayload : ∀ n, s.payload? ≠ some (.document (.parameter n))) (ht : s.bind p = .ok t) :
    t.Readable := by
  have hclosed := closed_keepsReadable fun n hn => hp n (mem_distinct.2 hn)
  have hrel := hclosed.rel_statement (List.Subset.refl _) ht
  cases hrel with
  | select h => exact h hs
  | insert h =>
    have hx := readable_of_payload_rel h fun n hn => hpayload n (congrArg some hn)
    exact ⟨hs.1, hx hs.2.1, hs.2.2⟩
  | update h =>
    have hx := readable_of_payload_rel h fun n hn => hpayload n (congrArg some hn)
    exact ⟨hs.1, hx hs.2⟩
  | delete h =>
    refine ⟨hs.1, hs.2.1, ?_⟩
    cases h with
    | none => trivial
    | some h => exact h.2 hs.2.2
  | get h | del h =>
    exact ⟨ne_nil_of_forall₂ h hs.1, forall_mem_of_forall₂ (fun v w hvw => hvw.1) h hs.2⟩
  | put hk hv => exact ⟨hk.1 hs.1, hv.1 hs.2.1, hs.2.2⟩

namespace Grammar

/-- Plain values inject no query text: the canonical text of a statement that was read and then
bound to them stands for exactly the bound statement. -/
theorem parseStatement_render_bind {text : String} {s t : Statement} {p : Parameters}
    (hs : (parseStatement text).result = .ok s)
    (hp : ∀ n ∈ s.parameters, ∀ v, p.value? n = some v → v.IsPlain)
    (hpayload : ∀ n, s.payload? ≠ some (.document (.parameter n))) (ht : s.bind p = .ok t) :
    (parseStatement t.render).result = .ok t :=
  parseStatement_of_readable ((readable_of_parseStatement hs).bind hp hpayload ht)

theorem parseStatement_render_bind_quotation :
    let text := "\"; del 1 -- @q /* \\"
    let s (v : Operand) := Statement.delete
      ⟨"T", [], some (.within "a" (.nested
        ⟨"U", ["b"], some (.compare "c" .equal v), [], 0, 0⟩))⟩
    let p := (Parameters.ofNames ["p"]).fill "p" (.text text)
    (s (.parameter "p")).bind p = .ok (s (.literal (.text text))) ∧
      (s (.literal (.text text))).render =
        "delete from T where a in (select b from U where c = \"\\\"; del 1 -- @q /* \\\\\")" ∧
      (parseStatement (s (.literal (.text text))).render).result =
        .ok (s (.literal (.text text))) := by
  intro text s p
  have hname : Name.isDotted true ['p'] = true := by decide
  have hs : (s (.parameter "p")).Readable := by
    simp [s, Statement.Readable, Condition.ClauseReadable, Condition.Readable, Operand.Readable,
      Select.Readable, Operand.isChoices, hname]
  have ht : (s (.parameter "p")).bind p = .ok (s (.literal (.text text))) := rfl
  refine ⟨ht, by decide +kernel, ?_⟩
  apply parseStatement_render_bind (parseStatement_of_readable hs) _ _ ht
  · intro n hn v hv
    cases List.mem_singleton.1 hn
    cases hv
    trivial
  · rintro n ⟨⟩

end Grammar

end StoreQuery

import StoreQuery.Proofs.Query.Readable

/-! # What equals what text can give

Numbers are compared as numbers of their kind, so what equals a readable document, operand or
condition need not be the same. But it has the same shape, and is readable as well.
-/

namespace StoreQuery

theorem Json.keys_of_same {ms ns : List (String × Json)} (h : sameMembers ms ns = true) :
    ns.map Prod.fst = ms.map Prod.fst := by
  induction ms generalizing ns with
  | nil =>
    cases ns with
    | nil => rfl
    | cons => cases h
  | cons m ms ih =>
    cases ns with
    | nil => cases h
    | cons n ns =>
      simp only [sameMembers, Bool.and_eq_true, beq_iff_eq] at h
      rw [List.map_cons, List.map_cons, ih h.2, h.1.1]

theorem Json.IsSorted.of_same {ms ns : List (String × Json)} (hms : IsSorted ms)
    (h : sameMembers ms ns = true) : IsSorted ns := by
  have hkeys : (ms.map Prod.fst).Pairwise (· < ·) := List.pairwise_map.2 hms
  rw [← keys_of_same h] at hkeys
  exact List.pairwise_map.1 hkeys

mutual

theorem Json.Readable.of_same : ∀ {j k : Json}, j.Readable → j.same k = true → k.Readable
  | .null, k, _, h => by
    cases k with
    | null => trivial
    | _ => cases h
  | .bool b, k, _, h => by
    cases k with
    | bool => trivial
    | _ => cases h
  | .text s, k, _, h => by
    cases k with
    | text => trivial
    | _ => cases h
  | .number m, k, hj, h => by
    cases k with
    | number n =>
      cases n with
      | integer n =>
        cases m with
        | integer m =>
          obtain rfl : m = n := beq_iff_eq.1 h
          exact hj
        | float => cases h
      | float => trivial
    | _ => cases h
  | .array js, k, hj, h => by
    cases k with
    | array ks => exact Json.AllReadable.of_same hj h
    | _ => cases h
  | .object ms, k, hj, h => by
    cases k with
    | object ns => exact ⟨hj.1.of_same h, Json.MembersReadable.of_same hj.2 h⟩
    | _ => cases h

theorem Json.AllReadable.of_same : ∀ {js ks : List Json}, Json.AllReadable js →
    Json.sameItems js ks = true → Json.AllReadable ks
  | [], ks, _, h => by
    cases ks with
    | nil => trivial
    | cons => cases h
  | j :: js, ks, hjs, h => by
    cases ks with
    | nil => cases h
    | cons k ks =>
      rw [Json.sameItems, Bool.and_eq_true] at h
      exact ⟨Json.Readable.of_same hjs.1 h.1, Json.AllReadable.of_same hjs.2 h.2⟩

theorem Json.MembersReadable.of_same : ∀ {ms ns : List (String × Json)},
    Json.MembersReadable ms → Json.sameMembers ms ns = true → Json.MembersReadable ns
  | [], ns, _, h => by
    cases ns with
    | nil => trivial
    | cons => cases h
  | (l, j) :: ms, ns, hms, h => by
    cases ns with
    | nil => cases h
    | cons n ns =>
      rw [Json.sameMembers, Bool.and_eq_true, Bool.and_eq_true] at h
      exact ⟨Json.Readable.of_same hms.1 h.1.2, Json.MembersReadable.of_same hms.2 h.2⟩

end

theorem Json.isEmpty_of_same {js ks : List Json} (h : sameItems js ks = true) :
    ks.isEmpty = js.isEmpty := by
  cases js <;> cases ks <;> first | rfl | cases h

theorem Value.isEmpty_of_same {vs ws : List Value} (h : sameItems vs ws = true) :
    ws.isEmpty = vs.isEmpty := by
  cases vs <;> cases ws <;> first | rfl | cases h

theorem Value.IsScalar.of_same {v w : Value} (hv : v.IsScalar) (h : v.same w = true) :
    w.IsScalar := by
  cases v with
  | float x =>
    cases w with
    | float y =>
      cases x with
      | finite x =>
        cases y with
        | finite => trivial
        | infinite negative => cases negative <;> cases h
        | nan => cases h
      | _ => cases hv
    | _ => cases h
  | json | array => cases hv
  | _ =>
    cases w with
    | null | bool | int | text => trivial
    | _ => cases h

theorem Operand.isEmpty_of_same {vs ws : List Operand} (h : sameItems vs ws = true) :
    ws.isEmpty = vs.isEmpty := by
  cases vs <;> cases ws <;> simp [sameItems] at h ⊢

theorem Operand.isChoices_of_same {v w : Operand} (h : v.same w = true) :
    w.isChoices = v.isChoices := by
  cases v with
  | literal a =>
    cases w with
    | literal b =>
      rw [Operand.same] at h
      cases a with
      | array =>
        cases b with
        | array => exact congrArg (!·) (Value.isEmpty_of_same h)
        | _ => cases h
      | _ =>
        cases b with
        | array => cases h
        | _ => rfl
    | _ => simp [Operand.same] at h
  | document j =>
    cases w with
    | document k =>
      rw [Operand.same] at h
      cases j with
      | array =>
        cases k with
        | array => exact congrArg (!·) (Json.isEmpty_of_same h)
        | _ => cases h
      | _ =>
        cases k with
        | array => cases h
        | _ => rfl
    | _ => simp [Operand.same] at h
  | list vs =>
    cases w with
    | list ws =>
      rw [Operand.same] at h
      exact congrArg (!·) (Operand.isEmpty_of_same h)
    | _ => simp [Operand.same] at h
  | parameter =>
    cases w with
    | parameter => rfl
    | _ => simp [Operand.same] at h
  | nested =>
    cases w with
    | nested => rfl
    | _ => simp [Operand.same] at h

theorem Condition.operator_of_same {c d : Condition} (h : c.same d = true) :
    d.operator = c.operator := by
  cases c <;> cases d <;> simp_all [Condition.same, operator]

theorem Condition.forall_operator_of_same {o : Operator} {cs ds : List Condition}
    (h : sameItems cs ds = true) (hcs : ∀ c ∈ cs, c.operator ≠ o) :
    ds.length = cs.length ∧ ∀ d ∈ ds, d.operator ≠ o := by
  induction cs generalizing ds with
  | nil =>
    cases ds with
    | nil => exact ⟨rfl, nofun⟩
    | cons => simp [sameItems] at h
  | cons c cs ih =>
    cases ds with
    | nil => simp [sameItems] at h
    | cons d ds =>
      rw [sameItems, Bool.and_eq_true] at h
      rw [List.forall_mem_cons] at hcs ⊢
      obtain ⟨hlen, hds⟩ := ih h.2 hcs.2
      exact ⟨congrArg Nat.succ hlen, operator_of_same h.1 ▸ hcs.1, hds⟩

mutual

theorem Operand.Readable.of_same : ∀ {v w : Operand}, v.Readable → v.same w = true → w.Readable
  | .literal a, w, hv, h => by
    cases w with
    | literal b =>
      rw [Operand.same] at h
      exact Value.IsScalar.of_same hv h
    | _ => simp [Operand.same] at h
  | .parameter m, w, hv, h => by
    cases w with
    | parameter n =>
      rw [Operand.same, beq_iff_eq] at h
      exact h ▸ hv
    | _ => simp [Operand.same] at h
  | .document j, w, hv, h => by
    cases w with
    | document k =>
      rw [Operand.same] at h
      refine ⟨?_, hv.2.of_same h⟩
      have hcontainer := hv.1
      cases j <;> cases k <;> trivial
    | _ => simp [Operand.same] at h
  | .list vs, w, hv, h => by
    cases w with
    | list ws =>
      rw [Operand.same] at h
      refine ⟨?_, Operand.AllReadable.of_same hv.2 h⟩
      have hempty := Operand.isEmpty_of_same h
      have hvs := hv.1
      cases vs <;> cases ws <;> simp_all
    | _ => simp [Operand.same] at h
  | .nested s, w, hv, h => by
    cases w with
    | nested t =>
      rw [Operand.same] at h
      exact Select.Readable.of_same hv h
    | _ => simp [Operand.same] at h

theorem Operand.AllReadable.of_same : ∀ {vs ws : List Operand}, Operand.AllReadable vs →
    Operand.sameItems vs ws = true → Operand.AllReadable ws
  | [], ws, _, h => by
    cases ws with
    | nil => trivial
    | cons => simp [Operand.sameItems] at h
  | v :: vs, ws, hvs, h => by
    cases ws with
    | nil => simp [Operand.sameItems] at h
    | cons w ws =>
      rw [Operand.sameItems, Bool.and_eq_true] at h
      exact ⟨Operand.Readable.of_same hvs.1 h.1, Operand.AllReadable.of_same hvs.2 h.2⟩

theorem Condition.Readable.of_same : ∀ {c d : Condition}, c.Readable → c.same d = true →
    d.Readable
  | .compare m o v, d, hc, h => by
    cases d with
    | compare n p w =>
      simp only [Condition.same, Bool.and_eq_true, beq_iff_eq] at h
      exact ⟨h.1.1 ▸ hc.1, Operand.Readable.of_same hc.2 h.2⟩
    | _ => simp [Condition.same] at h
  | .within m v, d, hc, h => by
    cases d with
    | within n w =>
      simp only [Condition.same, Bool.and_eq_true, beq_iff_eq] at h
      exact ⟨h.1 ▸ hc.1, (Operand.isChoices_of_same h.2).trans hc.2.1,
        Operand.Readable.of_same hc.2.2 h.2⟩
    | _ => simp [Condition.same] at h
  | .between m low high, d, hc, h => by
    cases d with
    | between n low' high' =>
      simp only [Condition.same, Bool.and_eq_true, beq_iff_eq] at h
      exact ⟨h.1.1 ▸ hc.1, Operand.Readable.of_same hc.2.1 h.1.2,
        Operand.Readable.of_same hc.2.2 h.2⟩
    | _ => simp [Condition.same] at h
  | .all cs, d, hc, h => by
    cases d with
    | all ds =>
      rw [Condition.same] at h
      obtain ⟨hlen, hds⟩ := Condition.forall_operator_of_same h hc.2.1
      exact ⟨hlen ▸ hc.1, hds, Condition.AllReadable.of_same hc.2.2 h⟩
    | _ => simp [Condition.same] at h
  | .any cs, d, hc, h => by
    cases d with
    | any ds =>
      rw [Condition.same] at h
      obtain ⟨hlen, hds⟩ := Condition.forall_operator_of_same h hc.2.1
      exact ⟨hlen ▸ hc.1, hds, Condition.AllReadable.of_same hc.2.2 h⟩
    | _ => simp [Condition.same] at h
  | .not c, d, hc, h => by
    cases d with
    | not d =>
      rw [Condition.same] at h
      have hd : d.Readable := Condition.Readable.of_same (c := c) hc h
      exact hd
    | _ => simp [Condition.same] at h

theorem Condition.AllReadable.of_same : ∀ {cs ds : List Condition}, Condition.AllReadable cs →
    Condition.sameItems cs ds = true → Condition.AllReadable ds
  | [], ds, _, h => by
    cases ds with
    | nil => trivial
    | cons => simp [Condition.sameItems] at h
  | c :: cs, ds, hcs, h => by
    cases ds with
    | nil => simp [Condition.sameItems] at h
    | cons d ds =>
      rw [Condition.sameItems, Bool.and_eq_true] at h
      exact ⟨Condition.Readable.of_same hcs.1 h.1, Condition.AllReadable.of_same hcs.2 h.2⟩

theorem Condition.ClauseReadable.of_same : ∀ {c d : Option Condition},
    Condition.ClauseReadable c → Condition.same? c d = true → Condition.ClauseReadable d
  | none, d, _, h => by
    cases d with
    | none => trivial
    | some => simp [Condition.same?] at h
  | some c, d, hc, h => by
    cases d with
    | none => simp [Condition.same?] at h
    | some d =>
      rw [Condition.same?] at h
      have hc : c.Readable := hc
      exact Condition.Readable.of_same hc h

theorem Select.Readable.of_same : ∀ {s t : Select}, s.Readable → s.same t = true → t.Readable
  | ⟨entity, fields, condition, sorts, skip, limit⟩, ⟨_, _, _, _, _, _⟩, hs, h => by
    simp only [Select.same, Bool.and_eq_true, beq_iff_eq] at h
    obtain ⟨⟨⟨⟨⟨rfl, rfl⟩, hcondition⟩, rfl⟩, rfl⟩, rfl⟩ := h
    obtain ⟨hentity, hfields, hreadable, hrest⟩ := hs
    exact ⟨hentity, hfields, Condition.ClauseReadable.of_same hreadable hcondition, hrest⟩

end

end StoreQuery

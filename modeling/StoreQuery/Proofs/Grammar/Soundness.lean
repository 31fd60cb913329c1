import StoreQuery.Proofs.Grammar.Soundness.Values
import StoreQuery.Proofs.Token.Stream

/-! # What is read can be derived

Every rule that ends with a result has taken tokens which the grammar derives for that result, up to
the rule of a whole statement.
-/

namespace StoreQuery.Grammar

open Rule

section Statement

theorem yields_value (depth : Nat) (c : Cursor) : Yields (value depth) c (Produces .value) :=
  (sound depth).value c

theorem yields_value_parameter (depth : Nat) {c : Cursor} {p : String}
    (hc : c.token = .parameter p) :
    Yields (value depth) c fun ts v => ts = [.parameter p] ∧ v = .parameter p := by
  cases depth with
  | zero => exact .exhausted
  | succ depth =>
    refine .peek ?_
    rw [hc]
    exact .mention fun c' _ hc' => .advance (hc'.trans hc) nofun (.pure ⟨rfl, rfl⟩)

theorem yields_keysUpTo (depth limit : Nat) (c : Cursor) :
    Yields (keysUpTo depth limit) c
      fun ts xs => ∀ us x, Produces .value us x → Produces .keys (us ++ ts) (x :: xs) := by
  induction limit generalizing c with
  | zero => exact .exhausted
  | succ limit ih =>
    refine .accept nofun ?_ fun _ => .peek ?_
    · refine .bind (yields_value depth _) fun vs y c' hy => ?_
      refine .bind (ih c') fun ws ys c'' hys => .pure fun us x hx => ?_
      rw [List.append_nil]
      exact .commaKey hx (hys vs y hy)
    · split
      · refine .bind (yields_value depth _) fun vs y c' hy => ?_
        refine .bind (ih c') fun ws ys c'' hys => .pure fun us x hx => ?_
        rw [List.append_nil]
        exact .key hx (hys vs y hy)
      · refine .pure fun us x hx => ?_
        rw [List.append_nil]
        exact .lastKey hx

theorem yields_keys (depth : Nat) (c : Cursor) : Yields (keys depth) c (Produces .keys) := by
  refine .bind (yields_value depth c) fun us x c' hx => ?_
  refine .bind (yields_keysUpTo depth _ c') fun ts xs c'' hxs => .pure ?_
  rw [List.append_nil]
  exact hxs us x hx

theorem yields_assignment (depth : Nat) (c : Cursor) :
    Yields (assignment depth) c (Produces .assignment) := by
  refine .bind .name ?_
  rintro _ field c₁ rfl
  refine .bind .symbol ?_
  rintro _ _ c₂ rfl
  refine .bind (yields_value depth c₂) fun ts v c₃ hv => .pure ?_
  rw [List.append_nil]
  exact .assignment hv

def IsPayloadPart {α : Type} (form : α → Payload) (ts : List Token) : Option α → Prop
  | some a => Produces .payload ts (form a)
  | none => ts = []

theorem yields_assignments (depth : Nat) (c : Cursor) :
    Yields (assignments depth) c (IsPayloadPart .assignments) := by
  refine .accept nofun ?_ fun _ => .pure rfl
  refine .bind (.list (yields_assignment depth) _) ?_
  rintro _ _ c' ⟨ts, us, a, as, rfl, rfl, ha, has⟩
  refine .bind .symbol ?_
  rintro _ _ c'' rfl
  refine .pure ?_
  rw [List.append_assoc]
  exact Derives.assignments ha has.produces

theorem yields_payloadDocument (depth : Nat) (c : Cursor) :
    Yields (payloadDocument depth) c (IsPayloadPart .document) := by
  refine .peek ?_
  split
  · next ht =>
    refine .advance ht nofun ?_
    refine .bind (yields_objectBody (yields_document depth) _) fun ts j c' hj => .pure ?_
    rw [List.append_nil]
    exact Derives.payloadObject hj
  · next ht =>
    refine .bind (yields_document_array depth ht) fun ts j c' hj => .pure ?_
    rw [List.append_nil]
    exact Derives.payloadArray hj
  · next p ht =>
    refine .bind (yields_value_parameter depth ht) ?_
    rintro _ _ c' ⟨rfl, rfl⟩
    exact .pure Derives.payloadParameter
  · exact .pure rfl

theorem yields_payload (depth : Nat) (c : Cursor) :
    Yields (payload depth) c (Produces .payload) := by
  refine .bind (yields_assignments depth c) fun ts conditions c' hts => ?_
  refine .bind (yields_payloadDocument depth c') fun us operand c'' hus => ?_
  split
  · exact .unexpected
  · refine .formed fun p hp => ?_
    cases conditions <;> cases operand <;> cases hp
    · rw [show ts = [] from hts, List.append_nil]
      exact hus
    · rw [show us = [] from hus, List.append_nil, List.append_nil]
      exact hts

theorem yields_lifetime (c : Cursor) : Yields lifetime c (Produces .lifetime) := by
  refine .bind (yields_count c) fun ts amount c' hts => .peek ?_
  split
  · next word ht =>
    split
    · next unit hunit =>
      split
      · next t hamount => exact .advance ht nofun (.pure (.lifetime hts hunit hamount))
      · exact .fail
    · exact .unexpected
  · exact .unexpected

theorem yields_insertInto (depth : Nat) (into : Bool) (c : Cursor) :
    Yields (insertInto depth) c fun ts s => Produces .body
      (.keyword .insert :: ((if into then [.keyword .into] else []) ++ ts)) (.insert s) := by
  refine .bind .name ?_
  rintro _ entity c₁ rfl
  refine .bind (yields_payload depth c₁) fun ts p c₂ hp => .peek ?_
  split
  · refine .bind (yields_lifetime c₂) fun us t c₃ ht => .pure ?_
    simp only [List.append_nil, List.singleton_append]
    exact .insertFor hp ht
  · refine .pure ?_
    rw [List.append_nil]
    exact .insert hp

theorem yields_insert (depth : Nat) (c : Cursor) :
    Yields (insert depth) c fun ts s => Produces .body (.keyword .insert :: ts) (.insert s) :=
  .accept nofun (yields_insertInto depth true _) fun _ => yields_insertInto depth false c

theorem yields_update (depth : Nat) (c : Cursor) :
    Yields (update depth) c fun ts s => Produces .body (.keyword .update :: ts) (.update s) := by
  refine .bind .name ?_
  rintro _ entity c₁ rfl
  refine .bind (yields_payload depth c₁) fun ts p c₂ hp => .pure ?_
  rw [List.append_nil]
  exact .update hp

theorem yields_delete (depth : Nat) (c : Cursor) :
    Yields (delete depth) c fun ts s => Produces .body (.keyword .delete :: ts) (.delete s) := by
  refine .bind (yields_fields c) fun ps projection c₁ hps => .bind .keyword ?_
  rintro _ _ c₂ rfl
  refine .bind .name ?_
  rintro _ entity c₃ rfl
  refine .bind ((sound depth).filter c₃) fun ts condition c₄ hts => .pure ?_
  simp only [List.append_nil, List.singleton_append]
  exact .delete hps hts

theorem yields_put (depth : Nat) (c : Cursor) :
    Yields (put depth) c fun ts s => Produces .body (.keyword .put :: ts) (.put s) := by
  refine .bind .symbol ?_
  rintro _ _ c₁ rfl
  refine .bind (yields_value depth c₁) fun ts key c₂ hts => .bind .symbol ?_
  rintro _ _ c₃ rfl
  refine .bind (yields_value depth c₃) fun us v c₄ hus => ?_
  refine .accept (by nofun) ?_ fun _ => .pure_bind (.bind .symbol ?_)
  · refine .bind (yields_lifetime _) fun vs t c₅ hvs => .pure_bind (.bind .symbol ?_)
    rintro _ _ c₆ rfl
    exact .pure (.putFor hts hus hvs)
  · rintro _ _ c₅ rfl
    exact .pure (.put hts hus)

theorem yields_body (depth : Nat) (c : Cursor) : Yields (body depth) c (Produces .body) := by
  refine .peek ?_
  split
  · refine .bind ((sound depth).select c) fun ts s c' hs => .pure ?_
    rw [List.append_nil]
    exact .bodySelect hs
  · next ht =>
    refine .advance ht nofun (.bind (yields_insert depth _) fun ts s c' hs => .pure ?_)
    rwa [List.append_nil]
  · next ht =>
    refine .advance ht nofun (.bind (yields_update depth _) fun ts s c' hs => .pure ?_)
    rwa [List.append_nil]
  · next ht =>
    refine .advance ht nofun (.bind (yields_delete depth _) fun ts s c' hs => .pure ?_)
    rwa [List.append_nil]
  · next ht =>
    refine .advance ht nofun (.bind (yields_keys depth _) fun ts ks c' hks => .pure ?_)
    rw [List.append_nil]
    exact .get hks
  · next ht =>
    refine .advance ht nofun (.bind (yields_put depth _) fun ts s c' hs => .pure ?_)
    rwa [List.append_nil]
  · next ht =>
    refine .advance ht nofun (.bind (yields_keys depth _) fun ts ks c' hks => .pure ?_)
    rw [List.append_nil]
    exact .del hks
  · exact .unexpected

theorem yields_statement (depth : Nat) (c : Cursor) :
    Yields (statement depth) c (Produces .statement) := by
  refine .bind (yields_body depth c) fun ts s c' hs => ?_
  refine .accept nofun (.peek ?_) fun _ => .peek ?_
  · split
    · exact .pure (.terminated hs)
    · exact .unexpected
  · split
    · refine .pure ?_
      rw [List.append_nil]
      exact .statement hs
    · exact .unexpected

theorem token_of_statement {depth : Nat} {c c' : Cursor} {s : Statement}
    (h : statement depth c = .done s c') : c'.token = .eof := by
  rw [statement, bind_apply] at h
  split at h
  · rw [bind_apply] at h
    split at h
    · next c₂ _ =>
      change (if c₂.token = .eof then pure _ else unexpected .endOfInput : Rule Statement) c₂ = _
        at h
      split at h
      · next ht =>
        cases h
        exact ht
      · cases h
    · cases h
    · cases h
  · cases h
  · cases h

/-- The statement that a text is read as can be derived from the tokens of the text. -/
theorem produces_of_parseStatement {text : String} {s : Statement}
    (h : (parseStatement text).result = .ok s) :
    Produces .statement (Lexeme.tokens text.toList) s := by
  unfold parseStatement Rule.run at h
  dsimp only at h
  split at h
  · next a c hc =>
    cases h
    obtain ⟨ts, hts, hs⟩ := yields_statement _ _ _ _ hc
    have hstart : (Cursor.start (Lexeme.scan text)).tokens = Lexeme.tokens text.toList :=
      Lexeme.map_token_scan text
    rw [hstart] at hts
    have heof : c.tokens = [] := by
      have ht := token_of_statement hc
      rw [Cursor.token_eq] at ht
      cases hrest : c.tokens with
      | nil => rfl
      | cons t rest =>
        rw [hrest] at ht hts
        have hmem : t ∈ Lexeme.tokens text.toList := by simp [hts]
        have := Lexeme.isRead_of_mem_tokens hmem
        rw [show t = .eof from ht] at this
        exact this.elim
    rw [hts, heof, List.append_nil]
    exact hs
  · cases h
  · cases h

end Statement

end StoreQuery.Grammar

import StoreQuery.Proofs.Query.Canonical

/-! # Documents in statements

The compact text of an object or an array ends by itself, so it is read wherever a value or a
payload may stand, whatever follows it. The document that it is read as is the one that was written:
it has the same members in the same order, and each number is the same integer or the same
floating-point number.
-/

namespace StoreQuery

namespace Grammar

section Rules

variable {d : Json} {rest : List Char} {c : Cursor} {depth : Nat}

theorem value_compact (hd : d.IsContainer) (hr : d.Readable)
    (hdepth : 2 * (Lexeme.tokens d.compact.toList).length + 1 ≤ depth)
    (hc : c.tokens = Lexeme.tokens (d.compact.toList ++ rest)) :
    ∃ c', value depth c = .done (.document d) c' ∧ c'.tokens = Lexeme.tokens rest := by
  obtain ⟨ts, hts, hderived⟩ := Json.exists_closed hd hr
  rw [hts.writes.tokens_eq] at hdepth
  rw [hts] at hc
  exact (complete (hderived.value hd)).1 depth _ hdepth c hc

theorem payload_compact (hd : d.IsContainer) (hr : d.Readable)
    (hdepth : 2 * (Lexeme.tokens d.compact.toList).length + 1 ≤ depth)
    (hc : c.tokens = Lexeme.tokens (d.compact.toList ++ rest)) :
    ∃ c', payload depth c = .done (.document (.document d)) c' ∧
      c'.tokens = Lexeme.tokens rest := by
  obtain ⟨ts, hts, hderived⟩ := Json.exists_closed hd hr
  rw [hts.writes.tokens_eq] at hdepth
  rw [hts] at hc
  cases d with
  | object ms => exact reads_payloadObject (complete hderived) hdepth c hc
  | array js => exact reads_payloadArray (complete hderived) hdepth c hc
  | _ => cases hd

end Rules

section Statements

variable {d : Json} {entity field : String}

theorem render_get_document (d : Json) :
    (Statement.get [.document d]).render = "get " ++ d.compact := by
  simp only [Statement.render, Operand.renderList, Operand.render, Operand.renderItems,
    String.append_empty]

theorem render_compare_document (entity field : String) (d : Json) :
    (Statement.select
      ⟨entity, [], some (.compare field .equal (.document d)), [], 0, 0⟩).render =
        "select * from " ++ Name.render entity ++ " where " ++ Name.render field ++ " = " ++
          d.compact := by
  simp [Statement.render, Select.render, Condition.renderClause, Condition.render,
    Operand.render, Comparison.render, SortKey.renderClause, Select.renderPaging,
    String.append_assoc]

theorem render_insert_document (entity : String) (d : Json) :
    (Statement.insert ⟨entity, .document (.document d), none⟩).render =
      "insert " ++ Name.render entity ++ " " ++ d.compact := by
  simp only [Statement.render, Payload.render, Operand.render, String.append_empty]

theorem render_update_document (entity : String) (d : Json) :
    (Statement.update ⟨entity, .document (.document d)⟩).render =
      "update " ++ Name.render entity ++ " " ++ d.compact := by
  simp only [Statement.render, Payload.render, Operand.render]

theorem parse_get_compact (hd : d.IsContainer) (hr : d.Readable) :
    (parseStatement ("get " ++ d.compact)).result = .ok (.get [.document d]) := by
  rw [← render_get_document]
  exact parseStatement_of_readable ⟨nofun, List.forall_mem_singleton.2 ⟨hd, hr⟩⟩

theorem parse_compare_compact (hd : d.IsContainer) (hr : d.Readable) (hentity : entity ≠ "")
    (hfield : field ≠ "") :
    (parseStatement ("select * from " ++ Name.render entity ++ " where " ++ Name.render field ++
      " = " ++ d.compact)).result =
        .ok (.select ⟨entity, [], some (.compare field .equal (.document d)), [], 0, 0⟩) := by
  rw [← render_compare_document]
  exact parseStatement_of_readable
    ⟨hentity, nofun, ⟨hfield, hd, hr⟩, nofun, by decide, by decide⟩

theorem parse_write_compact (hd : d.IsContainer) (hr : d.Readable) (hentity : entity ≠ "") :
    (parseStatement ("insert " ++ Name.render entity ++ " " ++ d.compact)).result =
        .ok (.insert ⟨entity, .document (.document d), none⟩) ∧
      (parseStatement ("update " ++ Name.render entity ++ " " ++ d.compact)).result =
        .ok (.update ⟨entity, .document (.document d)⟩) := by
  have hpayload : (Payload.document (.document d)).Readable := ⟨.inl ⟨d, rfl⟩, hd, hr⟩
  rw [← render_insert_document, ← render_update_document]
  exact ⟨parseStatement_of_readable ⟨hentity, hpayload, nofun⟩,
    parseStatement_of_readable ⟨hentity, hpayload⟩⟩

end Statements

/-- The compact text of an object or an array whose integers are signed words is read as that very
document, where a value and where a payload may stand, and whatever follows it. -/
theorem documents_reread {d : Json} (hd : d.IsContainer) (hr : d.Readable) :
    (∀ (c : Cursor) (rest : List Char) (depth : Nat),
      c.tokens = Lexeme.tokens (d.compact.toList ++ rest) →
      2 * (Lexeme.tokens d.compact.toList).length + 1 ≤ depth →
        (∃ c', value depth c = .done (.document d) c' ∧ c'.tokens = Lexeme.tokens rest) ∧
          ∃ c', payload depth c = .done (.document (.document d)) c' ∧
            c'.tokens = Lexeme.tokens rest) ∧
    (parseStatement ("get " ++ d.compact)).result = .ok (.get [.document d]) ∧
    ∀ entity field, entity ≠ "" → field ≠ "" →
      (parseStatement ("select * from " ++ Name.render entity ++ " where " ++ Name.render field ++
        " = " ++ d.compact)).result =
          .ok (.select ⟨entity, [], some (.compare field .equal (.document d)), [], 0, 0⟩) ∧
      (parseStatement ("insert " ++ Name.render entity ++ " " ++ d.compact)).result =
        .ok (.insert ⟨entity, .document (.document d), none⟩) ∧
      (parseStatement ("update " ++ Name.render entity ++ " " ++ d.compact)).result =
        .ok (.update ⟨entity, .document (.document d)⟩) := by
  refine ⟨fun c rest depth hc hdepth => ?rules, parse_get_compact hd hr,
    fun entity field hentity hfield => ?statements⟩
  case rules => exact ⟨value_compact hd hr hdepth hc, payload_compact hd hr hdepth hc⟩
  case statements =>
    exact ⟨parse_compare_compact hd hr hentity hfield, parse_write_compact hd hr hentity⟩

theorem documents_reread_nested :
    let d : Json := .object [("a", .array [.ofInt64 .minValue, .ofFinite (.zero true), .object []]),
      ("b\"", .text "\\")]
    let text := "\x7b\"a\":[-9223372036854775808,-0.0,\x7b\x7d],\"b\\\"\":\"\\\\\"\x7d"
    let depth := 2 * (Lexeme.tokens text.toList).length + 1
    d.IsContainer ∧ d.Readable ∧ d.compact = text ∧
      (∃ c, value depth (.start (Lexeme.scan (text ++ "1"))) = .done (.document d) c ∧
        c.tokens = Lexeme.tokens ['1']) ∧
      (parseStatement ("get " ++ text)).result = .ok (.get [.document d]) ∧
      (parseStatement ("insert T " ++ text)).result =
        .ok (.insert ⟨"T", .document (.document d), none⟩) := by
  intro d text depth
  have hr : d.Readable :=
    ⟨List.pairwise_pair.2 (by decide), ⟨⟨_, rfl⟩, trivial, ⟨.nil, trivial⟩, trivial⟩, trivial,
      trivial⟩
  have htext : d.compact = text := by decide +kernel
  obtain ⟨hrules, hget, hothers⟩ := documents_reread (d := d) trivial hr
  obtain ⟨-, hinsert, -⟩ := hothers "T" "a" (by decide) (by decide)
  rw [htext] at hrules hget hinsert
  have hstart : (Cursor.start (Lexeme.scan (text ++ "1"))).tokens =
      Lexeme.tokens (text.toList ++ "1".toList) := by
    rw [← String.toList_append]
    exact Lexeme.map_token_scan _
  exact ⟨trivial, hr, htext, (hrules _ _ depth hstart (Nat.le_refl _)).1, hget, hinsert⟩

end Grammar

end StoreQuery

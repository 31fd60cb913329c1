import StoreQuery.Proofs.Grammar.Completeness
import StoreQuery.Proofs.Grammar.Mentions

/-! # The texts that are scripts

A script is a row of statements with semicolons between them. Semicolons may also stand before the
first statement, after the last one and next to each other, but no statement follows another one
without a semicolon.
-/

namespace StoreQuery.Grammar

open Rule

/-- Whether some tokens are those of some statements with semicolons between them. -/
inductive IsScript : List Token → List Statement → Prop where
  | nil : IsScript [] []
  | semicolon {ts : List Token} {ss : List Statement} (h : IsScript ts ss) :
      IsScript (.symbol .semicolon :: ts) ss
  | statement {ts us : List Token} {s : Statement} {ss : List Statement} (hs : Produces .body ts s)
      (hus : front us = .symbol .semicolon ∨ front us = .eof) (h : IsScript us ss) :
      IsScript (ts ++ us) (s :: ss)

variable {depth limit : Nat} {c d : Cursor} {s : Statement} {ss : List Statement}
  {ts us rest : List Token}

theorem exists_front_body (h : Produces .body ts s) : ∃ t us, ts = t :: us ∧ t ∈ startsOfBody := by
  cases h with
  | bodySelect select =>
    cases select
    exact ⟨_, _, rfl, by simp [startsOfBody]⟩
  | insert | insertFor | update | delete | get | put | putFor | del =>
    exact ⟨_, _, rfl, by simp [startsOfBody]⟩

theorem startsOfBody_ne {t : Token} (h : t ∈ startsOfBody) : t ≠ .symbol .semicolon ∧ t ≠ .eof := by
  constructor <;> rintro rfl <;> simp [startsOfBody] at h

section Soundness

def afterBody (depth limit : Nat) (s : Statement) : Rule (List Statement) := do
  let t ← peek
  if t = .symbol .semicolon ∨ t = .eof then
    let ss ← scriptUpTo depth limit
    pure (s :: ss)
  else unexpected .separator

theorem Rule.if_apply {α : Type} {p : Prop} [Decidable p] {r r' : Rule α} :
    (if p then r else r') c = if p then r c else r' c := by
  split <;> rfl

theorem afterBody_eq : afterBody depth limit s c =
    if c.token = .symbol .semicolon ∨ c.token = .eof then
      (scriptUpTo depth limit >>= fun ss => pure (s :: ss)) c
    else unexpected .separator c := by
  show (if c.token = .symbol .semicolon ∨ c.token = .eof then _ else _ : Rule _) c = _
  rw [if_apply]

theorem afterBody_of_ne (h : ¬(c.token = .symbol .semicolon ∨ c.token = .eof)) :
    afterBody depth limit s c = unexpected .separator c := by
  rw [afterBody_eq, if_neg h]

theorem afterBody_eq_done (h : afterBody depth limit s c = .done ss d) :
    (c.token = .symbol .semicolon ∨ c.token = .eof) ∧
      ∃ ss', scriptUpTo depth limit c = .done ss' d ∧ ss = s :: ss' := by
  rw [afterBody_eq] at h
  split at h
  · next hend =>
    rw [bind_apply] at h
    cases hscript : scriptUpTo depth limit c with
    | failed | exhausted =>
      rw [hscript] at h
      cases h
    | done ss' d' =>
      rw [hscript] at h
      cases h
      exact ⟨hend, ss', rfl, rfl⟩
  · cases h

theorem scriptUpTo_succ : scriptUpTo depth (limit + 1) c =
    if c.token = .symbol .semicolon then scriptUpTo depth limit c.next
    else if c.token = .eof then .done [] c
    else (body depth >>= afterBody depth limit) c := by
  rw [scriptUpTo, bind_apply, Rule.accept]
  by_cases h : c.token = .symbol .semicolon
  · rw [if_pos h, if_pos h]
    rfl
  · rw [if_neg h, if_neg h]
    show (if c.token = .eof then _ else _ : Rule _) c = _
    rw [if_apply]
    rfl

theorem tokens_eq_nil (hc : Token.eof ∉ c.tokens) (h : c.token = .eof) : c.tokens = [] := by
  cases ht : c.tokens with
  | nil => rfl
  | cons t ts =>
    rw [Cursor.token_of_tokens ht] at h
    rw [ht, h] at hc
    exact absurd List.mem_cons_self hc

theorem isScript_of_scriptUpTo (hc : Token.eof ∉ c.tokens)
    (h : scriptUpTo depth limit c = .done ss d) : IsScript c.tokens ss ∧ d.tokens = [] := by
  induction limit generalizing c ss with
  | zero => cases h
  | succ limit ih =>
    rw [scriptUpTo_succ] at h
    split at h
    · next hsemicolon =>
      have htokens := Cursor.tokens_of_token hsemicolon nofun
      rw [htokens] at hc ⊢
      obtain ⟨hscript, hd⟩ := ih (fun hmem => hc (List.mem_cons_of_mem _ hmem)) h
      exact ⟨.semicolon hscript, hd⟩
    split at h
    · next heof =>
      cases h
      rw [tokens_eq_nil hc heof]
      exact ⟨.nil, rfl⟩
    rw [bind_apply] at h
    cases hbody : body depth c with
    | failed | exhausted =>
      rw [hbody] at h
      cases h
    | done s c₁ =>
      rw [hbody] at h
      obtain ⟨ts, hts, hs⟩ := yields_body _ _ _ _ hbody
      rw [hts] at hc
      obtain ⟨hend, ss', hscript, rfl⟩ := afterBody_eq_done h
      rw [Cursor.token_eq] at hend
      obtain ⟨hrest, hd⟩ := ih (fun hmem => hc (List.mem_append_right _ hmem)) hscript
      rw [hts]
      exact ⟨.statement hs hend hrest, hd⟩

end Soundness

section Completeness

theorem reads_afterBody (hfront : front ts = .symbol .semicolon ∨ front ts = .eof)
    (h : Reads (scriptUpTo depth limit) ts [] ss) :
    Reads (afterBody depth limit s) ts [] (s :: ss) := by
  have hend : front (ts ++ []) = .symbol .semicolon ∨ front (ts ++ []) = .eof := by
    rwa [List.append_nil]
  refine .peek (t := front (ts ++ [])) rfl ?_
  rw [if_pos hend]
  exact .last h .pure

theorem reads_scriptUpTo (h : IsScript ts ss) (hdepth : 2 * ts.length + 1 ≤ depth)
    (hlimit : ts.length < limit) : Reads (scriptUpTo depth limit) ts [] ss := by
  induction h generalizing limit with
  | nil =>
    obtain ⟨limit, rfl⟩ := Nat.exists_eq_succ_of_ne_zero (Nat.ne_of_gt hlimit)
    refine .skip nofun (.peek (t := .eof) rfl ?_)
    rw [if_pos rfl]
    exact .pure
  | semicolon _ ih =>
    rw [List.length_cons] at hdepth hlimit
    obtain ⟨limit, rfl⟩ := Nat.exists_eq_succ_of_ne_zero (show limit ≠ 0 by omega)
    exact .accept (ih (by omega) (by omega))
  | @statement ts us s ss hs hus _ ih =>
    obtain ⟨t, ts, rfl, ht⟩ := exists_front_body hs
    obtain ⟨hsemicolon, heof⟩ := startsOfBody_ne ht
    rw [List.length_append, List.length_cons] at hdepth hlimit
    obtain ⟨limit, rfl⟩ := Nat.exists_eq_succ_of_ne_zero (show limit ≠ 0 by omega)
    have hends : EndsBody (front (us ++ [])) := by
      rw [List.append_nil]
      rcases hus with hus | hus <;> rw [hus]
      · exact .semicolon
      · exact .eof
    have hbody : Reads (body depth) (t :: ts) (us ++ []) s :=
      complete hs depth _ (by rw [List.length_cons]; omega) hends
    refine .skip hsemicolon (.peek (t := t) rfl ?_)
    rw [if_neg heof]
    exact .bind hbody (reads_afterBody hus (ih (by omega) (by omega)))

end Completeness

theorem eof_not_mem_tokens (cs : List Char) : Token.eof ∉ Lexeme.tokens cs :=
  fun h => Lexeme.isRead_of_mem_tokens h

/-- A text is read as a script exactly if its tokens are one. -/
theorem parseScript_iff {text : String} :
    (parseScript text).result = .ok ss ↔ IsScript (Lexeme.tokens text.toList) ss := by
  have hstart : (Cursor.start (Lexeme.scan text)).tokens = Lexeme.tokens text.toList :=
    Lexeme.map_token_scan text
  have hlength : (Lexeme.tokens text.toList).length = (Lexeme.scan text).length := by
    rw [← Lexeme.map_token_scan, List.length_map]
  constructor
  · intro h
    unfold parseScript Rule.run at h
    dsimp only at h
    split at h
    · next hdone =>
      cases h
      have hscript := isScript_of_scriptUpTo (by rw [hstart]; exact eof_not_mem_tokens _) hdone
      rw [hstart] at hscript
      exact hscript.1
    · cases h
    · cases h
  · intro h
    have hreads : Reads (scriptUpTo (nesting (Lexeme.scan text)) ((Lexeme.scan text).length + 1))
        (Lexeme.tokens text.toList) [] ss :=
      reads_scriptUpTo h (by unfold nesting; omega) (by omega)
    obtain ⟨c, hc, -⟩ := hreads (.start (Lexeme.scan text)) (by rw [hstart, List.append_nil])
    change script (nesting (Lexeme.scan text)) (.start (Lexeme.scan text)) = .done ss c at hc
    unfold parseScript Rule.run
    dsimp only
    rw [hc]

/-- Statements without a semicolon between them are no script: the word that begins the second one
is at fault. -/
theorem parseScript_of_unseparated {text : String}
    (htext : Lexeme.tokens text.toList = ts ++ us) (hs : Produces .body ts s)
    (hus : front us ∈ startsOfBody) :
    ∃ l, (Lexeme.scan text)[ts.length]? = some l ∧
      (parseScript text).result = .error (.grammar ⟨.unexpected .separator l.token, l.span⟩) := by
  generalize hc : Cursor.start (Lexeme.scan text) = c
  have htokens : c.tokens = ts ++ us := by
    rw [← hc, ← htext]
    exact Lexeme.map_token_scan text
  have hlength : (ts ++ us).length = (Lexeme.scan text).length := by
    rw [← htext, ← Lexeme.map_token_scan, List.length_map]
  have hdepth : 2 * ts.length + 1 ≤ nesting (Lexeme.scan text) := by
    rw [List.length_append] at hlength
    unfold nesting
    omega
  obtain ⟨c', hbody, hc'⟩ := complete hs _ us hdepth (.of_mem hus) c htokens
  -- The cursor stands at the first token of the second statement.
  obtain ⟨passed, hpassed, -⟩ :=
    ((notes_body _ c).leads c' (by rw [hbody, Reply.cursor?])).exists_passed
  have hscan : Lexeme.scan text = passed ++ c'.rest := by rw [← hpassed, ← hc]; rfl
  have hpassedLength : passed.length = ts.length := by
    have := congrArg List.length hc'
    rw [Cursor.tokens, List.length_map] at this
    rw [hscan, List.length_append, List.length_append] at hlength
    omega
  obtain ⟨hsemicolon, heof⟩ := startsOfBody_ne hus
  rw [← hc', ← Cursor.token_eq] at hsemicolon heof
  obtain ⟨l, rest, hrest⟩ : ∃ l rest, c'.rest = l :: rest := by
    cases hrest : c'.rest with
    | nil => exact absurd (by rw [Cursor.token, hrest]) heof
    | cons l rest => exact ⟨l, rest, rfl⟩
  refine ⟨l, ?_, ?_⟩
  · rw [hscan, hrest, ← hpassedLength, List.getElem?_append_right (Nat.le_refl _), Nat.sub_self]
    rfl
  · obtain ⟨t, ts', rfl, ht⟩ := exists_front_body hs
    obtain ⟨hsemicolon', heof'⟩ := startsOfBody_ne ht
    have htoken : c.token = t := Cursor.token_of_tokens htokens
    have hscript : script (nesting (Lexeme.scan text)) c =
        .failed (.grammar ⟨.unexpected .separator c'.token, c'.span⟩) c' := by
      show scriptUpTo _ (_ + 1) c = _
      rw [scriptUpTo_succ, if_neg (htoken ▸ hsemicolon'), if_neg (htoken ▸ heof'), bind_apply,
        hbody]
      exact afterBody_of_ne (not_or_intro hsemicolon heof)
    unfold parseScript Rule.run
    dsimp only
    rw [hc, hscript, Cursor.token, Cursor.span, hrest]

end StoreQuery.Grammar

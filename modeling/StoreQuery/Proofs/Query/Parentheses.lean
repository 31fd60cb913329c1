import StoreQuery.Proofs.Grammar.Refusal
import StoreQuery.Proofs.Query.Canonical

/-! # Parentheses and precedence

Whatever parentheses a text adds to the ones that a condition needs, the condition built anew is
read from it, and that one is true of the same records. A text of a condition with an empty list of
parts is refused, and never read as another condition.
-/

namespace StoreQuery

open Grammar

/-- A select or a delete, but for its condition. -/
inductive Host where
  | select (fields : List String) (entity : String)
  | delete (fields : List String) (entity : String)

namespace Host

/-- Whether no name of a host is empty. -/
def IsNamed : Host → Prop
  | select fields entity | delete fields entity => entity ≠ "" ∧ ∀ f ∈ fields, f ≠ ""

def statement : Host → Condition → Statement
  | select fields entity, c => .select ⟨entity, fields, some c, [], 0, 0⟩
  | delete fields entity, c => .delete ⟨entity, fields, some c⟩

def text : Host → String → String
  | select fields entity, s =>
    "select " ++ (if fields.isEmpty then "*" else Name.renderList fields) ++ " from " ++
      Name.render entity ++ " where " ++ s
  | delete fields entity, s =>
    "delete " ++ (if fields.isEmpty then "" else Name.renderList fields ++ " ") ++ "from " ++
      Name.render entity ++ " where " ++ s

/-- Some tokens are those of a host up to `where`, in its text, in derivations and in failures. -/
structure Begins (h : Host) (hs : List Token) : Prop where
  tokens_text : ∀ s, Lexeme.tokens (h.text s).toList =
    hs ++ .keyword .whereWord :: Lexeme.tokens s.toList
  produces : ∀ {ts c}, Produces .condition ts c →
    Produces .body (hs ++ .keyword .whereWord :: ts) (h.statement c)
  fails : ∀ {ts}, (∀ depth, 3 * ts.length + 4 ≤ depth →
    Fails (filter depth) (.keyword .whereWord :: ts)) → ∀ depth, 3 * ts.length + 5 ≤ depth →
      Fails (Grammar.statement depth) (hs ++ .keyword .whereWord :: ts)

theorem exists_begins {h : Host} (hnamed : h.IsNamed) : ∃ hs, h.Begins hs := by
  cases h with
  | select fields entity =>
    obtain ⟨hentity, hfields⟩ := hnamed
    obtain ⟨ps, hps, hprojection⟩ := Spells.projection hfields
    refine ⟨.keyword .select :: (ps ++ [.keyword .fromWord, .name entity]), ?_, ?_, ?_⟩
    · intro s
      have hclose := (Closes.keyword .select).append (hps.append_closes ((Closes.spaced
        .fromWord).append ((Writes.name hentity).append_closes (Closes.spaced .whereWord) rfl
          nofun)) rfl nofun)
      have htokens := hclose s.toList
      simp only [List.append_assoc] at htokens
      simp only [text, String.toList_append, List.append_assoc]
      exact htokens.trans (by simp)
    · intro ts c hc
      have hbody : Produces .body _ ((select fields entity).statement c) :=
        .bodySelect (.select hprojection (.filter hc) .noOrdering .noPaging)
      simpa using hbody
    · intro ts hfails depth hdepth
      obtain ⟨depth, rfl⟩ := Nat.exists_eq_succ_of_ne_zero (show depth ≠ 0 by omega)
      rw [List.cons_append, List.append_assoc]
      exact .bind (.peek rfl (.bind (.keyword (.after (complete hprojection _ rfl)
        (.keyword (.name (.bind (hfails depth (by omega)))))))))
  | delete fields entity =>
    obtain ⟨hentity, hfields⟩ := hnamed
    have hname : Closes ((Name.render entity).toList ++ " where ".toList)
        [.name entity, .keyword .whereWord] :=
      (Writes.name hentity).append_closes (Closes.spaced .whereWord) rfl nofun
    obtain ⟨ps, hprojection, hheading⟩ := exists_closes_delete hfields
    refine ⟨.keyword .delete :: (ps ++ [.keyword .fromWord, .name entity]), ?_, ?_, ?_⟩
    · intro s
      have htokens := (hheading.append hname) s.toList
      simp only [text, String.toList_append, List.append_assoc] at htokens ⊢
      simpa using htokens
    · intro ts c hc
      have hbody : Produces .body _ ((delete fields entity).statement c) :=
        .delete hprojection (.filter hc)
      simpa using hbody
    · intro ts hfails depth hdepth
      rw [List.cons_append, List.append_assoc]
      exact .bind (.peek rfl (.advance (.bind (.after (complete hprojection _ rfl)
        (.keyword (.name (.bind (hfails depth (by omega)))))))))

end Host

namespace Grammar

theorem parseStatement_of_fails {text : String}
    (h : ∀ depth, 4 * (Lexeme.tokens text.toList).length + 8 ≤ depth →
      Fails (statement depth) (Lexeme.tokens text.toList)) :
    ∃ e, (parseStatement text).result = .error (.grammar e) := by
  have hstart : (Cursor.start (Lexeme.scan text)).tokens = Lexeme.tokens text.toList :=
    Lexeme.map_token_scan text
  have hlen : (Lexeme.tokens text.toList).length = (Lexeme.scan text).length := by
    rw [← Lexeme.map_token_scan, List.length_map]
  obtain ⟨e, c, hc⟩ := h (nesting (Lexeme.scan text)) (by unfold nesting; omega) _ hstart
  refine ⟨e, ?_⟩
  unfold parseStatement Rule.run
  dsimp only
  rw [hc]

end Grammar

namespace Condition

def IsParsed (c : Condition) : Prop :=
  ∃ text, (parseStatement text).result = .ok (.select ⟨"T", [], some c, [], 0, 0⟩)

theorem isParsed_iff {c : Condition} : c.IsParsed ↔ c.Readable := by
  rw [IsParsed, ← readable_iff]
  refine ⟨fun ⟨_, _, hc, _⟩ => hc, fun hc => ?_⟩
  exact ⟨by decide, nofun, hc, nofun, Nat.zero_lt_succ _, Nat.zero_lt_succ _⟩

/-- Whether a text is a rendering of a condition. -/
def IsText (c : Condition) (text : String) : Prop :=
  Renders (.condition .free c) (Lexeme.tokens text.toList)

theorem isText_render {c : Condition} (h : ∀ l ∈ c.leaves, l.IsParsed) : c.IsText c.render := by
  obtain ⟨ts, hts, hc⟩ := c.renders fun l hl => isParsed_iff.1 (h l hl)
  rw [IsText, hts.tokens_eq]
  exact hc .free rfl

theorem IsText.parse {c d : Condition} {text : String} (h : c.IsText text)
    (hd : c.rebuild = .ok d) {host : Host} (hnamed : host.IsNamed) :
    (parseStatement (host.text text)).result = .ok (host.statement d) := by
  obtain ⟨hs, hbegins⟩ := Host.exists_begins hnamed
  refine parseStatement_of_produces ?_
  rw [hbegins.tokens_text]
  exact .statement (hbegins.produces (h.produces hd))

theorem IsText.refuse {c : Condition} {text : String} (h : c.IsText text)
    (hc : c.hasParts = false) {host : Host} (hnamed : host.IsNamed) :
    ∃ e, (parseStatement (host.text text)).result = .error (.grammar e) := by
  obtain ⟨hs, hbegins⟩ := Host.exists_begins hnamed
  refine parseStatement_of_fails fun depth hdepth => ?_
  rw [hbegins.tokens_text] at hdepth ⊢
  rw [List.length_append, List.length_cons] at hdepth
  exact hbegins.fails (fun _ => h.fails_filter hc) depth (by omega)

/-- The canonical text of a condition is one of its texts. From any of them the condition built anew
is read, which is true whenever the condition is; if a list of parts is empty, none of them is in
the grammar. -/
theorem parse_texts {c : Condition} (hleaves : ∀ l ∈ c.leaves, l.IsParsed) {host : Host}
    (hnamed : host.IsNamed) :
    c.IsText c.render ∧
      (c.hasParts = true → ∃ d, c.rebuild = .ok d ∧
        (∀ value, d.holds value = c.holds value) ∧
        ∀ text, c.IsText text →
          (parseStatement (host.text text)).result = .ok (host.statement d)) ∧
      (c.hasParts = false → ∀ text, c.IsText text →
        ∃ e, (parseStatement (host.text text)).result = .error (.grammar e)) := by
  refine ⟨isText_render hleaves, fun hc => ?_, fun hc _ htext => htext.refuse hc hnamed⟩
  obtain ⟨d, hd⟩ := exists_rebuild hc
  exact ⟨d, hd, fun _ => holds_rebuild hd, fun _ htext => htext.parse hd hnamed⟩

theorem parse_texts_single_part :
    (∃ d, rebuild (.all [.any [.compare "a" .equal (.literal (.int 1))]]) = .ok d ∧
      (parseStatement "delete from T where (a = 1)").result = .ok (.delete ⟨"T", [], some d⟩)) ∧
      ∃ e, (parseStatement "delete from T where not ()").result = .error (.grammar e) := by
  have hnamed : (Host.delete [] "T").IsNamed := ⟨by decide, nofun⟩
  have hleaf : (compare "a" .equal (.literal (.int 1))).IsParsed :=
    isParsed_iff.2 ⟨by decide, trivial⟩
  obtain ⟨htext, hparts, -⟩ := parse_texts
    (c := .all [.any [.compare "a" .equal (.literal (.int 1))]])
    (by rintro _ (_ | ⟨_, ⟨⟩⟩); exact hleaf) hnamed
  obtain ⟨hempty, -, hrefused⟩ := parse_texts (c := .not (.all [])) nofun hnamed
  have hsingle : (Host.delete [] "T").text
      (Condition.all [.any [.compare "a" .equal (.literal (.int 1))]]).render =
        "delete from T where (a = 1)" := by
    decide +kernel
  have hmissing : (Host.delete [] "T").text (Condition.not (.all [])).render =
      "delete from T where not ()" := by
    decide +kernel
  obtain ⟨d, hd, -, hparse⟩ := hparts rfl
  have hresult := hparse _ htext
  have herror := hrefused rfl _ hempty
  rw [hsingle] at hresult
  rw [hmissing] at herror
  exact ⟨⟨d, hd, hresult⟩, herror⟩

end Condition

end StoreQuery

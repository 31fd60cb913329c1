import StoreQuery.Proofs.Grammar.Derivation
import StoreQuery.Proofs.Grammar.Reading

/-! # Values and conditions are read

What it is to read the tokens of a nonterminal in front of any token that cannot continue them, and
how values, documents and conditions are read when their parts are. A rule needs to allow about
twice as much nesting as there are tokens.
-/

namespace StoreQuery.Grammar

open Rule

/-- The tokens that cannot continue a row of conditions. -/
def EndsCondition (t : Token) : Prop :=
  t ≠ .keyword .and ∧ t ≠ .keyword .or

def EndsFilter (t : Token) : Prop :=
  t ≠ .keyword .whereWord ∧ EndsCondition t

def EndsSortKey (t : Token) : Prop :=
  t ≠ .keyword .asc ∧ t ≠ .keyword .desc

def EndsOrdering (t : Token) : Prop :=
  t ≠ .keyword .order ∧ t ≠ .symbol .comma ∧ EndsSortKey t

def EndsPaging (t : Token) : Prop :=
  t ≠ .keyword .skip ∧ t ≠ .keyword .limit

def EndsSelect (t : Token) : Prop :=
  EndsFilter t ∧ EndsOrdering t ∧ EndsPaging t

def EndsKeys (t : Token) : Prop :=
  t ≠ .symbol .comma ∧ startsValue t = false

def EndsPayload (t : Token) : Prop :=
  t ≠ .symbol .leftBrace ∧ t ≠ .symbol .leftBracket ∧ ∀ p, t ≠ .parameter p

theorem EndsPayload.integer {n : Int64} : EndsPayload (.integer n) :=
  ⟨nofun, nofun, nofun⟩

theorem EndsPayload.invalid {e : LexicalFault} : EndsPayload (.invalid e) :=
  ⟨nofun, nofun, nofun⟩

def startsOfBody : List Token :=
  [.keyword .select, .keyword .insert, .keyword .update, .keyword .delete, .keyword .get,
    .keyword .put, .keyword .del]

/-- The tokens that cannot continue a statement: what ends it, and what another one begins with. -/
def EndsBody (t : Token) : Prop :=
  t ∈ .symbol .semicolon :: .eof :: startsOfBody

namespace EndsBody

variable {t : Token}

theorem semicolon : EndsBody (.symbol .semicolon) :=
  List.mem_cons_self

theorem eof : EndsBody .eof :=
  List.mem_cons_of_mem _ List.mem_cons_self

theorem of_mem (h : t ∈ startsOfBody) : EndsBody t :=
  List.mem_cons_of_mem _ (List.mem_cons_of_mem _ h)

theorem endsSelect (h : EndsBody t) : EndsSelect t := by
  have hall : ∀ t ∈ .symbol .semicolon :: .eof :: startsOfBody, EndsSelect t := by
    simp [startsOfBody, EndsSelect, EndsFilter, EndsCondition, EndsOrdering, EndsSortKey,
      EndsPaging]
  exact hall t h

theorem endsPayload (h : EndsBody t) : EndsPayload t := by
  have hall : ∀ t ∈ .symbol .semicolon :: .eof :: startsOfBody, EndsPayload t := by
    simp [startsOfBody, EndsPayload]
  exact hall t h

theorem endsKeys (h : EndsBody t) : EndsKeys t := by
  have hall : ∀ t ∈ .symbol .semicolon :: .eof :: startsOfBody,
      t ≠ .symbol .comma ∧ startsValue t = false := by
    decide
  exact hall t h

end EndsBody

def ReadsUnary (ts : List Token) (c : Condition) : Prop :=
  0 < ts.length ∧ ∀ depth rest, 2 * ts.length ≤ depth → Reads (unary depth) ts rest c

/-- How the tokens of a nonterminal are read. -/
def Complete : (n : Nonterminal) → List Token → n.Result → Prop
  | .number, ts, v =>
    (∀ depth rest, Reads (value (depth + 1)) ts rest (.literal v)) ∧
      ∀ depth rest, Reads (document (depth + 1)) ts rest v.toJson
  | .count, ts, n => ∀ rest, Reads count ts rest n
  | .name, ts, s => ∀ rest, Reads name ts rest s
  | .member, ts, m => ∃ us, ts = .text m.1 :: .symbol .colon :: us ∧
    ∀ depth rest, 2 * us.length + 1 ≤ depth → Reads (document depth) us rest m.2
  | .object, ts, j => ∃ us, ts = .symbol .leftBrace :: us ∧
    (∀ depth rest, 2 * us.length ≤ depth → Reads (objectBody (document depth)) us rest j) ∧
      ∀ depth rest, 2 * us.length ≤ depth → Reads (braces (depth + 1)) us rest (.document j)
  | .array, ts, j => ∃ us, ts = .symbol .leftBracket :: us ∧
    ∀ depth rest, 2 * us.length ≤ depth → Reads (arrayBody (document depth)) us rest j
  | .document, ts, j =>
    ∀ depth rest, 2 * ts.length + 1 ≤ depth → Reads (document depth) ts rest j
  | .value, ts, v =>
    (∀ depth rest, 2 * ts.length + 1 ≤ depth → Reads (value depth) ts rest v) ∧
      ∀ depth rest, 2 * ts.length + 2 ≤ depth → Reads (choices depth) ts rest v
  | .choices, ts, v => v.isChoices = true ∧
    ∀ depth rest, 2 * ts.length + 2 ≤ depth → Reads (choices depth) ts rest v
  | .predicate field, ts, c =>
    ∀ depth rest, 2 * ts.length + 1 ≤ depth → Reads (test depth field) ts rest c
  | .unary, ts, c => ReadsUnary ts c
  | .links, ts, cs => Linked ReadsUnary ts cs
  | .condition, ts, c => ∀ depth rest, 2 * ts.length + 2 ≤ depth → EndsCondition (front rest) →
    Reads (disjunction depth) ts rest c
  | .filter, ts, c => ∀ depth rest, 2 * ts.length + 1 ≤ depth → EndsFilter (front rest) →
    Reads (filter depth) ts rest c
  | .fields, ts, fs => ∀ rest, front rest = .keyword .fromWord → Reads fields ts rest fs
  | .sortKey, ts, s => ∀ rest, EndsSortKey (front rest) → Reads sortKey ts rest s
  | .ordering, ts, sorts => ∀ rest, EndsOrdering (front rest) → Reads ordering ts rest sorts
  | .paging, ts, p => ∀ rest, EndsPaging (front rest) → Reads paging ts rest p
  | .select, ts, s => ∀ depth rest, 2 * ts.length + 1 ≤ depth → EndsSelect (front rest) →
    Reads (select depth) ts rest s
  | .keys, ts, ks => ∃ us vs x xs, ts = us ++ vs ∧ ks = x :: xs ∧ 0 < us.length ∧
    ∀ depth rest, 2 * ts.length + 1 ≤ depth → EndsKeys (front rest) →
      Reads (value depth) us (vs ++ rest) x ∧
        ∀ limit, vs.length < limit → Reads (keysUpTo depth limit) vs rest xs
  | .assignment, ts, c =>
    ∀ depth rest, 2 * ts.length + 1 ≤ depth → Reads (assignment depth) ts rest c
  | .payload, ts, p => ∀ depth rest, 2 * ts.length + 1 ≤ depth → EndsPayload (front rest) →
    Reads (payload depth) ts rest p
  | .lifetime, ts, t => ∀ rest, Reads lifetime ts rest t
  | .body, ts, s => ∀ depth rest, 2 * ts.length + 1 ≤ depth → EndsBody (front rest) →
    Reads (body depth) ts rest s
  | .statement, ts, s => ∀ depth, 2 * ts.length + 1 ≤ depth → Reads (statement depth) ts [] s
  | .more n, ts, as => Further (.symbol .comma) (Complete n) ts as

section Front

variable {single : Operand → Prop} {ts rest : List Token}

theorem front_value {v : Operand} (h : Derives single .value ts v) :
    startsValue (front ts) = true ∧
      ∀ s, front ts = .text s → ts = [.text s] ∧ v = .literal (.text s) := by
  cases h with
  | valueText =>
    refine ⟨rfl, ?_⟩
    rintro _ ⟨⟩
    exact ⟨rfl, rfl⟩
  | valueNumber number => cases number <;> exact ⟨rfl, nofun⟩
  | valueObject object => cases object <;> exact ⟨rfl, nofun⟩
  | valueArray array => cases array <;> exact ⟨rfl, nofun⟩
  | valueTrue => exact ⟨rfl, nofun⟩
  | valueFalse => exact ⟨rfl, nofun⟩
  | valueNull => exact ⟨rfl, nofun⟩
  | valueParameter => exact ⟨rfl, nofun⟩
  | valueList => exact ⟨rfl, nofun⟩
  | valueSelect => exact ⟨rfl, nofun⟩

theorem front_document {j : Json} (h : Derives single .document ts j) :
    startsValue (front ts) = true := by
  cases h with
  | documentNumber number => cases number <;> rfl
  | documentObject object => cases object <;> rfl
  | documentArray array => cases array <;> rfl
  | documentText => rfl
  | documentTrue => rfl
  | documentFalse => rfl
  | documentNull => rfl

theorem front_append_of_startsValue (h : startsValue (front ts) = true) :
    front (ts ++ rest) = front ts := by
  cases ts with
  | nil => exact absurd h (by decide)
  | cons t ts => rfl

theorem front_append_ne {t : Token} (h : startsValue (front ts) = true)
    (ht : startsValue t = false) : front (ts ++ rest) ≠ t := by
  rw [front_append_of_startsValue h]
  rintro rfl
  rw [h] at ht
  exact absurd ht (by decide)

theorem front_keys {ks : List Operand} (h : Derives single .keys ts ks) :
    startsValue (front (ts ++ rest)) = true := by
  cases h with
  | lastKey value =>
    rw [front_append_of_startsValue (front_value value).1]
    exact (front_value value).1
  | key value =>
    rw [List.append_assoc, front_append_of_startsValue (front_value value).1]
    exact (front_value value).1
  | commaKey value =>
    rw [List.append_assoc, front_append_of_startsValue (front_value value).1]
    exact (front_value value).1

theorem front_ordering {sorts : List SortKey} {p : Token → Prop}
    (h : Derives single .ordering ts sorts) (hp : p (.keyword .order)) (hr : p (front rest)) :
    p (front (ts ++ rest)) := by
  cases h with
  | noOrdering => exact hr
  | ordering => exact hp

theorem front_paging {n : UInt64 × UInt64} {p : Token → Prop}
    (h : Derives single .paging ts n) (hs : p (.keyword .skip)) (hl : p (.keyword .limit))
    (hr : p (front rest)) : p (front (ts ++ rest)) := by
  cases h with
  | noPaging => exact hr
  | skip => exact hs
  | limit => exact hl
  | skipLimit => exact hs
  | limitSkip => exact hl

end Front

section Values

variable {ts us : List Token}

theorem reads_integer {n : Int64} : Complete .number [.integer n] (.int n) :=
  ⟨fun _ _ => .peek (t := .integer n) rfl (.advance .pure),
    fun _ _ => .peek (t := .integer n) rfl (.advance .pure)⟩

theorem reads_float {x : Number.Binary64.Finite} :
    Complete .number [.float x] (.float (.finite x)) :=
  ⟨fun _ _ => .peek (t := .float x) rfl (.advance .pure),
    fun _ _ => .peek (t := .float x) rfl (.advance .pure)⟩

/-- A number after a minus is read wherever a value may stand. -/
theorem reads_minus {t : Token} {v : Value} (h : ∀ rest, Reads negative [t] rest v) :
    Complete .number [.symbol .minus, t] v :=
  ⟨fun _ _ => .peek (t := .symbol .minus) rfl (.advance (.last (h _) .pure)),
    fun _ _ => .peek (t := .symbol .minus) rfl (.advance (.last (h _) .pure))⟩

theorem reads_minusInteger {n : Int64} (h : n ≠ .minValue) :
    Complete .number [.symbol .minus, .integer n] (.int (-n)) := by
  refine reads_minus fun _ => .peek (t := .integer n) rfl ?_
  dsimp only
  rw [if_neg h]
  exact .advance .pure

theorem reads_minusFloat {x : Number.Binary64.Finite} :
    Complete .number [.symbol .minus, .float x] (.float (.finite x.neg)) :=
  reads_minus fun _ => .peek (t := .float x) rfl (.advance .pure)

theorem reads_count {n : Int64} (h : 0 ≤ n) : Complete .count [.integer n] n.toUInt64 := by
  refine fun _ => .peek (t := .integer n) rfl ?_
  dsimp only
  rw [if_neg (Int64.not_lt.2 h)]
  exact .advance .pure

theorem reads_emptyObject :
    Complete .object [.symbol .leftBrace, .symbol .rightBrace] (.object []) :=
  ⟨[.symbol .rightBrace], rfl, fun _ _ _ => .accept .pure,
    fun _ _ _ => .peek (t := .symbol .rightBrace) rfl (.advance .pure)⟩

theorem reads_object {m : String × Json} {ms : List (String × Json)}
    (hm : Complete .member ts m) (hms : Complete (.more .member) us ms) :
    Complete .object (.symbol .leftBrace :: (ts ++ (us ++ [.symbol .rightBrace])))
      (.ofMembers (m :: ms)) := by
  obtain ⟨vs, rfl, hj⟩ := hm
  have hfrom : ∀ depth rest,
      2 * (Token.text m.1 :: Token.symbol .colon :: vs ++
        (us ++ [Token.symbol .rightBrace])).length ≤ depth →
      Reads (objectFrom m.1 (document depth))
        (.symbol .colon :: (vs ++ (us ++ [.symbol .rightBrace]))) rest (.ofMembers (m :: ms)) := by
    intro depth rest hdepth
    simp only [List.length_cons, List.length_append] at hdepth
    refine .symbol (.bind (hj depth _ (by omega)) (.bind ?_ (.symbol .pure)))
    refine hms.reads (F := fun _ => True) (fun ws a hlen ha rest _ => ?_) trivial trivial nofun
    obtain ⟨xs, rfl, hx⟩ := ha
    simp only [List.length_cons] at hlen
    exact .text_bind (.symbol (.last (hx depth rest (by omega)) .pure))
  refine ⟨_, rfl, fun depth rest hdepth => ?_, fun depth rest hdepth => ?_⟩
  · exact .skip nofun (.text_bind (hfrom depth rest hdepth))
  · refine .peek (t := .text m.1) rfl (.advance (.peek (t := .symbol .colon) rfl ?_))
    rw [if_pos rfl]
    exact .last (hfrom depth rest hdepth) .pure

theorem reads_array {j : Json} {js : List Json} (hts : startsValue (front ts) = true)
    (hj : Complete .document ts j) (hjs : Complete (.more .document) us js) :
    Complete .array (.symbol .leftBracket :: (ts ++ (us ++ [.symbol .rightBracket])))
      (.array (j :: js)) := by
  refine ⟨_, rfl, fun depth rest hdepth => .skip ?_ ?_⟩
  · rw [List.append_assoc]
    exact front_append_ne hts rfl
  · simp only [List.length_append, List.length_singleton] at hdepth
    rw [← List.append_assoc]
    refine .bind (Further.reads_list (F := fun _ => True) hjs hj (fun vs a hlen ha rest _ => ?_)
      trivial trivial nofun) (.symbol .pure)
    exact ha depth rest (by omega)

theorem reads_document {j : Json}
    (h : ∀ depth rest, 2 * ts.length ≤ depth → Reads (document (depth + 1)) ts rest j) :
    Complete .document ts j := by
  intro depth rest hdepth
  obtain ⟨depth, rfl⟩ := Nat.exists_eq_succ_of_ne_zero (show depth ≠ 0 by omega)
  exact h depth rest (by omega)

theorem reads_documentObject {j : Json} (hj : Complete .object ts j) :
    Complete .document ts j := by
  obtain ⟨us, rfl, hbody, -⟩ := hj
  refine reads_document fun depth rest hdepth => .peek (t := .symbol .leftBrace) rfl ?_
  rw [List.length_cons] at hdepth
  exact .advance (hbody depth rest (by omega))

theorem reads_documentArray {j : Json} (hj : Complete .array ts j) : Complete .document ts j := by
  obtain ⟨us, rfl, hbody⟩ := hj
  refine reads_document fun depth rest hdepth => .peek (t := .symbol .leftBracket) rfl ?_
  rw [List.length_cons] at hdepth
  exact .advance (hbody depth rest (by omega))

/-- A value that does not begin with a parenthesis may stand after `in` as well. -/
theorem reads_value {v : Operand} (hts : ∀ rest, front (ts ++ rest) ≠ .symbol .leftParen)
    (h : ∀ depth rest, 2 * ts.length ≤ depth → Reads (value (depth + 1)) ts rest v) :
    Complete .value ts v := by
  refine ⟨fun depth rest hdepth => ?_, fun depth rest hdepth => ?_⟩
  · obtain ⟨depth, rfl⟩ := Nat.exists_eq_succ_of_ne_zero (show depth ≠ 0 by omega)
    exact h depth rest (by omega)
  · obtain ⟨depth, rfl⟩ := Nat.exists_eq_add_of_le (show 2 ≤ depth by omega)
    rw [Nat.add_comm]
    exact .skip (hts rest) (h depth rest (by omega))

theorem reads_valueObject {j : Json} (hj : Complete .object ts j) :
    Complete .value ts (.document j) := by
  obtain ⟨us, rfl, -, hbraces⟩ := hj
  refine reads_value nofun fun depth rest hdepth => .peek (t := .symbol .leftBrace) rfl ?_
  rw [List.length_cons] at hdepth
  obtain ⟨depth, rfl⟩ := Nat.exists_eq_succ_of_ne_zero (show depth ≠ 0 by omega)
  exact .advance (hbraces depth rest (by omega))

theorem reads_valueArray {j : Json} (hj : Complete .array ts j) :
    Complete .value ts (.document j) := by
  have hdocument := reads_documentArray hj
  obtain ⟨us, rfl, -⟩ := hj
  refine reads_value nofun fun depth rest hdepth => .peek (t := .symbol .leftBracket) rfl ?_
  exact .last (hdocument (depth + 1) rest (by omega)) .pure

theorem reads_valueList {x : Operand} {xs : List Operand}
    (hts : startsValue (front ts) = true ∧
      ∀ s, front ts = .text s → ts = [.text s] ∧ x = .literal (.text s))
    (hx : Complete .value ts x) (hxs : Complete (.more .value) us xs) :
    Complete .value (.symbol .leftBrace :: (ts ++ (us ++ [.symbol .rightBrace])))
      (.list (x :: xs)) := by
  refine reads_value nofun fun depth rest hdepth =>
    .peek (t := .symbol .leftBrace) rfl (.advance ?_)
  simp only [List.length_cons, List.length_append] at hdepth
  obtain ⟨depth, rfl⟩ := Nat.exists_eq_succ_of_ne_zero (show depth ≠ 0 by omega)
  refine .peek (t := front ts) ?_ ?_
  · rw [List.append_assoc, front_append_of_startsValue hts.1]
  split
  · next s hs =>
    obtain ⟨rfl, rfl⟩ := hts.2 s hs
    have hcolon : front (us ++ [.symbol .rightBrace] ++ rest) ≠ .symbol .colon := by
      rw [List.append_assoc]
      exact Further.front_append (F := (· ≠ .symbol .colon)) hxs nofun nofun
    rw [List.singleton_append]
    refine .advance (.peek (t := front (us ++ [.symbol .rightBrace] ++ rest)) rfl ?_)
    rw [if_neg hcolon]
    refine .bind (Further.reads (F := fun _ => True) hxs (fun vs a hlen ha rest _ => ?_) trivial
      trivial nofun) (.symbol .pure)
    exact ha.1 depth rest (by omega)
  · next hs =>
    rw [hs] at hts
    exact absurd hts.1 (by decide)
  · rw [← List.append_assoc]
    refine .bind (Further.reads_list (F := fun _ => True) hxs hx (fun vs a hlen ha rest _ => ?_)
      trivial trivial nofun) (.symbol .pure)
    exact ha.1 depth rest (by omega)

theorem reads_valueSelect {s : Select} (hts : front ts = .keyword .select)
    (hs : Complete .select ts s) :
    Complete .value (.symbol .leftParen :: (ts ++ [.symbol .rightParen])) (.nested s) := by
  have hread : ∀ depth rest, 2 * ts.length + 1 ≤ depth →
      Reads (select depth) ts ([.symbol .rightParen] ++ rest) s := fun depth rest hdepth =>
    hs depth _ hdepth ⟨⟨nofun, nofun, nofun⟩, ⟨nofun, nofun, nofun, nofun⟩, nofun, nofun⟩
  refine ⟨fun depth rest hdepth => ?_, fun depth rest hdepth => ?_⟩
  · obtain ⟨depth, rfl⟩ := Nat.exists_eq_succ_of_ne_zero (show depth ≠ 0 by omega)
    simp only [List.length_cons, List.length_append] at hdepth
    exact .peek (t := .symbol .leftParen) rfl
      (.advance (.bind (hread depth rest (by omega)) (.symbol .pure)))
  · obtain ⟨depth, rfl⟩ := Nat.exists_eq_succ_of_ne_zero (show depth ≠ 0 by omega)
    simp only [List.length_cons, List.length_append] at hdepth
    refine .accept (.peek (t := .keyword .select) ?_ ?_)
    · rw [List.append_assoc]
      exact front_append hts nofun
    · rw [if_pos rfl]
      exact .bind (hread depth rest (by omega)) (.symbol .pure)

end Values

section Conditions

variable {ts us vs rest : List Token} {c : Condition}

theorem reads_choicesList {x : Operand} {xs : List Operand}
    (hts : startsValue (front ts) = true) (hx : Complete .value ts x)
    (hxs : Complete (.more .value) us xs) :
    Complete .choices (.symbol .leftParen :: (ts ++ (us ++ [.symbol .rightParen])))
      (.list (x :: xs)) := by
  refine ⟨rfl, fun depth rest hdepth => ?_⟩
  obtain ⟨depth, rfl⟩ := Nat.exists_eq_succ_of_ne_zero (show depth ≠ 0 by omega)
  simp only [List.length_cons, List.length_append] at hdepth
  refine .accept (.peek (t := front ts) ?_ ?_)
  · rw [List.append_assoc, front_append_of_startsValue hts]
  rw [if_neg, ← List.append_assoc]
  · refine .bind (Further.reads_list (F := fun _ => True) hxs hx (fun vs a hlen ha rest _ => ?_)
      trivial trivial nofun) (.symbol .pure)
    exact ha.1 depth rest (by omega)
  · intro h
    rw [h] at hts
    exact absurd hts (by decide)

theorem reads_compare {field : String} {t : Token} {o : Comparison} {v : Operand}
    (h : comparison? t = some o) (hv : Complete .value ts v) :
    Complete (.predicate field) (t :: ts) (.compare field o v) := by
  intro depth rest hdepth
  obtain ⟨depth, rfl⟩ := Nat.exists_eq_succ_of_ne_zero (show depth ≠ 0 by omega)
  rw [List.length_cons] at hdepth
  refine .skip ?_ (.skip ?_ (.peek (t := t) rfl ?_))
  · rintro rfl
    cases h
  · rintro rfl
    cases h
  · rw [h]
    exact .advance (.last (hv.1 depth rest (by omega)) .pure)

theorem reads_between {field : String} {low high : Operand} (hlow : Complete .value ts low)
    (hhigh : Complete .value us high) :
    Complete (.predicate field) (.keyword .between :: (ts ++ .keyword .and :: us))
      (.between field low high) := by
  intro depth rest hdepth
  obtain ⟨depth, rfl⟩ := Nat.exists_eq_succ_of_ne_zero (show depth ≠ 0 by omega)
  simp only [List.length_cons, List.length_append] at hdepth
  exact .skip nofun (.accept (.bind (hlow.1 depth _ (by omega))
    (.keyword (.last (hhigh.1 depth rest (by omega)) .pure))))

theorem reads_within {field : String} {v : Operand} (hv : Complete .choices ts v) :
    Complete (.predicate field) (.keyword .inWord :: ts) (.within field v) := by
  obtain ⟨hchoices, hv⟩ := hv
  intro depth rest hdepth
  obtain ⟨depth, rfl⟩ := Nat.exists_eq_succ_of_ne_zero (show depth ≠ 0 by omega)
  rw [List.length_cons] at hdepth
  refine .accept (.last (hv depth rest (by omega)) ?_)
  rw [Condition.withinOf, if_pos hchoices]
  exact .pure

theorem reads_not (h : ReadsUnary ts c) : ReadsUnary (.keyword .not :: ts) (.not c) := by
  refine ⟨Nat.succ_pos _, fun depth rest hdepth => ?_⟩
  rw [List.length_cons] at hdepth
  obtain ⟨depth, rfl⟩ := Nat.exists_eq_succ_of_ne_zero (show depth ≠ 0 by omega)
  exact .accept (.last (h.2 depth rest (by omega)) .pure)

theorem reads_parens (h : Complete .condition ts c) :
    ReadsUnary (.symbol .leftParen :: (ts ++ [.symbol .rightParen])) c := by
  refine ⟨Nat.succ_pos _, fun depth rest hdepth => ?_⟩
  simp only [List.length_cons, List.length_append] at hdepth
  obtain ⟨depth, rfl⟩ := Nat.exists_eq_succ_of_ne_zero (show depth ≠ 0 by omega)
  exact .skip nofun (.accept (.bind (h depth _ (by omega) ⟨nofun, nofun⟩) (.symbol .pure)))

theorem reads_test {field : String} (h : Complete (.predicate field) ts c) :
    ReadsUnary (.name field :: ts) c := by
  refine ⟨Nat.succ_pos _, fun depth rest hdepth => ?_⟩
  rw [List.length_cons] at hdepth
  obtain ⟨depth, rfl⟩ := Nat.exists_eq_succ_of_ne_zero (show depth ≠ 0 by omega)
  exact .skip nofun (.skip nofun (.name_bind (h depth rest (by omega))))

theorem reads_conjunction (h : IsConjunction ReadsUnary ts c) {depth : Nat}
    (hdepth : 2 * ts.length + 1 ≤ depth) (hrest : front rest ≠ .keyword .and) :
    Reads (conjunction depth) ts rest c := by
  obtain ⟨us, vs, d, ds, rfl, hd, hds, rfl⟩ := h
  obtain ⟨depth, rfl⟩ := Nat.exists_eq_succ_of_ne_zero (show depth ≠ 0 by omega)
  rw [List.length_append] at hdepth
  refine .bind (hd.2 depth _ (by omega)) (.last ?_ .pure)
  exact hds.reads (F := fun _ => True) (fun ws a hlen ha rest _ => ha.2 depth rest (by omega))
    trivial trivial hrest

theorem reads_condition {cs : List (Connective × Condition)} (hc : ReadsUnary us c)
    (hcs : Linked ReadsUnary vs cs) : Complete .condition (us ++ vs) (.join c cs) := by
  intro depth rest hdepth hrest
  obtain ⟨ws, xs, d, es, heq, hd, hes, hjoin⟩ := hcs.disjunction hc
  obtain ⟨depth, rfl⟩ := Nat.exists_eq_succ_of_ne_zero (show depth ≠ 0 by omega)
  rw [heq, List.length_append] at hdepth
  rw [heq, hjoin]
  have hxs : front (xs ++ rest) ≠ .keyword .and :=
    hes.front_append (F := (· ≠ .keyword .and)) nofun hrest.1
  refine .bind (reads_conjunction hd (by omega) hxs) (.last ?_ .pure)
  exact hes.reads (F := (· ≠ .keyword .and))
    (fun ys a hlen ha rest h => reads_conjunction ha (by omega) h) nofun hrest.1 hrest.2

theorem reads_filter (h : Complete .condition ts c) :
    Complete .filter (.keyword .whereWord :: ts) (some c) := by
  intro depth rest hdepth hrest
  rw [List.length_cons] at hdepth
  obtain ⟨depth, rfl⟩ := Nat.exists_eq_succ_of_ne_zero (show depth ≠ 0 by omega)
  exact .accept (.last (h depth rest (by omega) hrest.2) .pure)

theorem reads_noFilter : Complete .filter [] none := by
  intro depth rest hdepth hrest
  obtain ⟨depth, rfl⟩ := Nat.exists_eq_succ_of_ne_zero (show depth ≠ 0 by omega)
  exact .skip hrest.1 .pure

end Conditions

end StoreQuery.Grammar

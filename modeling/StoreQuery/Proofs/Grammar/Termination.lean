import StoreQuery.Proofs.Grammar.Completeness.Statements
import StoreQuery.Proofs.Grammar.Script

/-! # Rules end

The nesting that a text is read with is never used up. A rule is nested in another one either after
a token, which makes up for more nesting than any rule needs before its next token, or among the few
rules that need no token of their own; so a bound that is linear in the tokens that are left passes
from each rule to those nested in it.
-/

namespace StoreQuery.Grammar

open Rule

namespace Cursor

/-- The number of tokens that are left. -/
def left (c : Cursor) : Nat :=
  c.rest.length

theorem length_tokens (c : Cursor) : c.tokens.length = c.left :=
  List.length_map _

theorem left_next_le (c : Cursor) : c.next.left ≤ c.left := by
  obtain ⟨_ | ⟨l, rest⟩, place, mentioned⟩ := c
  · exact Nat.le_refl _
  · exact Nat.le_succ _

theorem left_next {c : Cursor} {t : Token} (ht : c.token = t) (hne : t ≠ .eof) :
    c.next.left + 1 = c.left := by
  obtain ⟨_ | ⟨l, rest⟩, place, mentioned⟩ := c
  · exact absurd ht.symm hne
  · rfl

end Cursor

/-- A rule ends, and no more tokens are left than before. -/
structure Ends {α : Type} (r : Rule α) (c : Cursor) : Prop where
  ne_exhausted : r c ≠ .exhausted
  left_le : ∀ a d, r c = .done a d → d.left ≤ c.left

namespace Ends

variable {α β : Type} {r : Rule α} {f : α → Rule β} {c : Cursor}

theorem of_eq {r' : Rule α} {d : Cursor} (h : Ends r' d) (hd : d.left ≤ c.left)
    (heq : r c = r' d) : Ends r c where
  ne_exhausted := heq ▸ h.ne_exhausted
  left_le a e he := Nat.le_trans (h.left_le a e (heq ▸ he)) hd

theorem pure {a : α} : Ends (Pure.pure a) c where
  ne_exhausted := nofun
  left_le := by
    rintro _ _ ⟨⟩
    exact Nat.le_refl _

theorem fail {fault : GrammarFault} : Ends (Rule.fail fault : Rule α) c where
  ne_exhausted := nofun
  left_le := nofun

theorem unexpected {wanted : Expectation} : Ends (Rule.unexpected wanted : Rule α) c where
  ne_exhausted := nofun
  left_le := nofun

theorem formed {x : Except QueryError α} : Ends (Rule.formed x) c := by
  cases x with
  | ok => exact pure
  | error => exact ⟨nofun, nofun⟩

theorem bind_of_done (hr : Ends r c) (hf : ∀ a d, r c = .done a d → Ends (f a) d) :
    Ends (r >>= f) c := by
  cases hrc : r c with
  | done a d => exact (hf a d hrc).of_eq (hr.left_le a d hrc) (by rw [bind_apply, hrc])
  | failed e d =>
    have heq : (r >>= f) c = .failed e d := by rw [bind_apply, hrc]
    exact ⟨heq ▸ nofun, heq ▸ nofun⟩
  | exhausted => exact absurd hrc hr.ne_exhausted

theorem bind (hr : Ends r c) (hf : ∀ a d, d.left ≤ c.left → Ends (f a) d) : Ends (r >>= f) c :=
  bind_of_done hr fun a d h => hf a d (hr.left_le a d h)

theorem pure_bind {a : α} (h : Ends (f a) c) : Ends (Pure.pure a >>= f) c :=
  h.of_eq (Nat.le_refl _) rfl

theorem peek {g : Token → Rule β} (h : Ends (g c.token) c) : Ends (Rule.peek >>= g) c :=
  h.of_eq (Nat.le_refl _) rfl

theorem mention {p : String} {g : Unit → Rule β}
    (h : ∀ d, d.left = c.left → Ends (g ()) d) : Ends (Rule.mention p >>= g) c :=
  (h { c with mentioned := c.mentioned ++ [p] } rfl).of_eq (Nat.le_refl _) rfl

theorem advance {g : Unit → Rule β} (h : Ends (g ()) c.next) : Ends (Rule.advance >>= g) c :=
  h.of_eq c.left_next_le rfl

theorem accept {g : Bool → Rule β} {t : Token} (hne : t ≠ .eof)
    (htrue : c.next.left + 1 = c.left → Ends (g true) c.next) (hfalse : Ends (g false) c) :
    Ends (Rule.accept t >>= g) c := by
  by_cases ht : c.token = t
  · exact (htrue (Cursor.left_next ht hne)).of_eq c.left_next_le
      (by rw [bind_apply, Rule.accept, if_pos ht])
  · exact hfalse.of_eq (Nat.le_refl _) (by rw [bind_apply, Rule.accept, if_neg ht])

theorem symbol {s : Symbol} : Ends (Rule.symbol s) c :=
  accept nofun (fun _ => pure) unexpected

theorem keyword {k : Keyword} : Ends (Rule.keyword k) c :=
  accept nofun (fun _ => pure) unexpected

theorem name : Ends Rule.name c := by
  refine peek ?_
  split
  · exact advance pure
  · exact unexpected

theorem text : Ends Rule.text c := by
  refine peek ?_
  split
  · exact advance pure
  · exact unexpected

theorem count : Ends Rule.count c := by
  refine peek ?_
  split
  · split
    · exact fail
    · exact advance pure
  · exact unexpected

section Further

variable {item : Rule α} {separator : Token} {n : Nat} (hne : separator ≠ .eof)
  (h : ∀ d : Cursor, d.left ≤ n → Ends item d)

include hne h

/-- Each further item comes with a separator, so that there are fewer of them than rounds. -/
theorem furtherUpTo (limit : Nat) :
    ∀ c : Cursor, c.left ≤ n → c.left < limit → Ends (Rule.furtherUpTo separator item limit) c := by
  induction limit with
  | zero => exact fun _ _ hlimit => absurd hlimit (Nat.not_lt_zero _)
  | succ limit ih =>
    intro c hc hlimit
    refine accept hne (fun hnext => ?_) pure
    exact bind (h _ (by omega)) fun _ d hd =>
      bind (ih d (by omega) (by omega)) fun _ _ _ => pure

theorem further (c : Cursor) (hc : c.left ≤ n) : Ends (Rule.further separator item) c :=
  (furtherUpTo hne h _ c hc (Nat.lt_succ_self _)).of_eq (Nat.le_refl _) rfl

theorem separated (c : Cursor) (hc : c.left ≤ n) : Ends (Rule.separated separator item) c :=
  bind (h c hc) fun _ d hd => bind (further hne h d (Nat.le_trans hd hc)) fun _ _ _ => pure

omit hne

theorem list (c : Cursor) (hc : c.left ≤ n) : Ends (Rule.list item) c :=
  separated (by nofun) h c hc

end Further

end Ends

section Document

theorem ends_negative (c : Cursor) : Ends negative c := by
  refine .peek ?_
  split
  · split
    · exact .fail
    · exact .advance .pure
  · exact .advance .pure
  · exact .unexpected

section

variable {value : Rule Json} {n : Nat} (h : ∀ d : Cursor, d.left ≤ n → Ends value d)

include h

theorem ends_member (c : Cursor) (hc : c.left ≤ n) : Ends (member value) c :=
  .bind .text fun _ _ hd => .bind .symbol fun _ e he =>
    .bind (h e (by omega)) fun _ _ _ => .pure

theorem ends_objectFrom (key : String) (c : Cursor) (hc : c.left ≤ n) :
    Ends (objectFrom key value) c :=
  .bind .symbol fun _ d hd => .bind (h d (by omega)) fun _ e he =>
    .bind (.further (by nofun) (ends_member h) e (by omega)) fun _ _ _ =>
      .bind .symbol fun _ _ _ => .pure

theorem ends_objectBody (c : Cursor) (hc : c.left ≤ n) : Ends (objectBody value) c :=
  .accept nofun (fun _ => .pure)
    (.bind .text fun key d hd => ends_objectFrom h key d (Nat.le_trans hd hc))

theorem ends_arrayBody (c : Cursor) (hc : c.left ≤ n) : Ends (arrayBody value) c :=
  .accept nofun (fun _ => .pure)
    (.bind (.list h c hc) fun _ _ _ => .bind .symbol fun _ _ _ => .pure)

end

theorem ends_document (depth : Nat) : ∀ c : Cursor, c.left < depth → Ends (document depth) c := by
  induction depth with
  | zero => exact fun _ hc => absurd hc (Nat.not_lt_zero _)
  | succ depth ih =>
    intro c hc
    have hnested : ∀ n, n < depth → ∀ d : Cursor, d.left ≤ n → Ends (document depth) d :=
      fun n hn d hd => ih d (Nat.lt_of_le_of_lt hd hn)
    refine .peek ?_
    cases ht : c.token with
    | text | integer | float => exact .advance .pure
    | keyword k =>
      cases k
      case true | false | null => exact .advance .pure
      all_goals exact .unexpected
    | symbol s =>
      have hnext := Cursor.left_next ht nofun
      have hbelow := hnested c.next.left (by omega)
      cases s
      case minus => exact .advance (.bind (ends_negative _) fun _ _ _ => .pure)
      case leftBrace => exact .advance (ends_objectBody hbelow _ (Nat.le_refl _))
      case leftBracket => exact .advance (ends_arrayBody hbelow _ (Nat.le_refl _))
      all_goals exact .unexpected
    | _ => exact .unexpected

end Document

section Clauses

theorem ends_fields (c : Cursor) : Ends fields c := by
  refine .accept nofun (fun _ => .pure) (.peek ?_)
  split
  · exact .pure
  · exact .list (fun _ _ => .name) c (Nat.le_refl _)

theorem ends_sortKey (c : Cursor) : Ends sortKey c :=
  .bind .name fun _ _ _ => .accept nofun (fun _ => .pure) (.accept nofun (fun _ => .pure) .pure)

theorem ends_ordering (c : Cursor) : Ends ordering c :=
  .accept nofun
    (fun _ => .bind .keyword fun _ d _ => .list (fun e _ => ends_sortKey e) d (Nat.le_refl _)) .pure

theorem ends_clauseCount (k : Keyword) (c : Cursor) : Ends (clauseCount k) c :=
  .accept nofun (fun _ => .bind .count fun _ _ _ => .pure) .pure

theorem ends_paging (c : Cursor) : Ends paging c := by
  refine .bind (ends_clauseCount .skip c) fun skip d _ => ?_
  cases skip with
  | some => exact .bind (ends_clauseCount .limit d) fun _ _ _ => .pure
  | none =>
    refine .bind (ends_clauseCount .limit d) fun limit e _ => ?_
    cases limit with
    | some => exact .bind (ends_clauseCount .skip e) fun _ _ _ => .pure
    | none => exact .pure

end Clauses

section Nested

/-- The tokens with which the rules that are nested in each other end when a number of further ones
is allowed. At most four rules are nested in each other before the next token is taken, as where a
disjunction begins with a test, so that four for each token that is left are enough. -/
structure Ending (depth : Nat) : Prop where
  value : ∀ c : Cursor, 4 * c.left + 1 ≤ depth → Ends (value depth) c
  braces : ∀ c : Cursor, 4 * c.left + 2 ≤ depth → Ends (braces depth) c
  select : ∀ c : Cursor, 4 * c.left + 2 ≤ depth → Ends (select depth) c
  filter : ∀ c : Cursor, 4 * c.left + 1 ≤ depth → Ends (filter depth) c
  disjunction : ∀ c : Cursor, 4 * c.left + 4 ≤ depth → Ends (disjunction depth) c
  conjunction : ∀ c : Cursor, 4 * c.left + 3 ≤ depth → Ends (conjunction depth) c
  unary : ∀ c : Cursor, 4 * c.left + 2 ≤ depth → Ends (unary depth) c
  test : ∀ field (c : Cursor), 4 * c.left + 1 ≤ depth → Ends (test depth field) c
  choices : ∀ c : Cursor, 4 * c.left + 2 ≤ depth → Ends (choices depth) c

variable {depth : Nat} (ih : Ending depth) (c : Cursor)

include ih

theorem Ending.value_succ (hc : 4 * c.left + 1 ≤ depth + 1) :
    Ends (Grammar.value (depth + 1)) c := by
  refine .peek ?_
  cases ht : c.token with
  | text | integer | float => exact .advance .pure
  | parameter => exact .mention fun _ _ => .advance .pure
  | keyword k =>
    cases k
    case true | false | null => exact .advance .pure
    all_goals exact .unexpected
  | symbol s =>
    have hnext := Cursor.left_next ht nofun
    cases s
    case minus => exact .advance (.bind (ends_negative _) fun _ _ _ => .pure)
    case leftBrace => exact .advance (ih.braces _ (by omega))
    case leftBracket => exact .bind (ends_document _ c (by omega)) fun _ _ _ => .pure
    case leftParen =>
      exact .advance
        (.bind (ih.select _ (by omega)) fun _ _ _ => .bind .symbol fun _ _ _ => .pure)
    all_goals exact .unexpected
  | _ => exact .unexpected

theorem Ending.braces_succ (hc : 4 * c.left + 2 ≤ depth + 1) :
    Ends (Grammar.braces (depth + 1)) c := by
  have hvalue : ∀ d : Cursor, d.left ≤ c.left → Ends (Grammar.value depth) d :=
    fun d hd => ih.value d (by omega)
  have hdocument : ∀ d : Cursor, d.left ≤ c.left → Ends (document depth) d :=
    fun d hd => ends_document depth d (by omega)
  have hnext := c.left_next_le
  refine .peek ?_
  split
  · refine .advance (.peek ?_)
    split
    · exact .bind (ends_objectFrom hdocument _ _ hnext) fun _ _ _ => .pure
    · exact .bind (.further (by nofun) hvalue _ hnext) fun _ _ _ => .bind .symbol fun _ _ _ => .pure
  · exact .advance .pure
  · exact .bind (.list hvalue c (Nat.le_refl _)) fun _ _ _ => .bind .symbol fun _ _ _ => .pure

theorem Ending.select_succ (hc : 4 * c.left + 2 ≤ depth + 1) :
    Ends (Grammar.select (depth + 1)) c := by
  refine .bind .keyword fun _ c₁ h₁ => .bind (ends_fields c₁) fun _ c₂ h₂ => ?_
  refine .bind .keyword fun _ c₃ h₃ => .bind .name fun _ c₄ h₄ => ?_
  refine .bind (ih.filter c₄ (by omega)) fun _ c₅ _ => ?_
  exact .bind (ends_ordering c₅) fun _ c₆ _ => .bind (ends_paging c₆) fun _ _ _ => .pure

theorem Ending.filter_succ (hc : 4 * c.left + 1 ≤ depth + 1) :
    Ends (Grammar.filter (depth + 1)) c :=
  .accept nofun (fun _ => .bind (ih.disjunction _ (by omega)) fun _ _ _ => .pure) .pure

theorem Ending.disjunction_succ (hc : 4 * c.left + 4 ≤ depth + 1) :
    Ends (Grammar.disjunction (depth + 1)) c := by
  have hpart : ∀ d : Cursor, d.left ≤ c.left → Ends (Grammar.conjunction depth) d :=
    fun d hd => ih.conjunction d (by omega)
  exact .bind (hpart c (Nat.le_refl _)) fun _ d hd =>
    .bind (.further (by nofun) hpart d hd) fun _ _ _ => .pure

theorem Ending.conjunction_succ (hc : 4 * c.left + 3 ≤ depth + 1) :
    Ends (Grammar.conjunction (depth + 1)) c := by
  have hpart : ∀ d : Cursor, d.left ≤ c.left → Ends (Grammar.unary depth) d :=
    fun d hd => ih.unary d (by omega)
  exact .bind (hpart c (Nat.le_refl _)) fun _ d hd =>
    .bind (.further (by nofun) hpart d hd) fun _ _ _ => .pure

theorem Ending.unary_succ (hc : 4 * c.left + 2 ≤ depth + 1) :
    Ends (Grammar.unary (depth + 1)) c := by
  refine .accept nofun (fun _ => ?_) (.accept nofun (fun _ => ?_) ?_)
  · exact .bind (ih.unary _ (by omega)) fun _ _ _ => .pure
  · exact .bind (ih.disjunction _ (by omega)) fun _ _ _ => .bind .symbol fun _ _ _ => .pure
  · exact .bind .name fun field d _ => ih.test field d (by omega)

theorem Ending.test_succ (field : String) (hc : 4 * c.left + 1 ≤ depth + 1) :
    Ends (Grammar.test (depth + 1) field) c := by
  refine .accept nofun (fun _ => ?_) (.accept nofun (fun _ => ?_) (.peek ?_))
  · exact .bind (ih.choices _ (by omega)) fun _ _ _ => .formed
  · exact .bind (ih.value _ (by omega)) fun _ d _ => .bind .keyword fun _ e _ =>
      .bind (ih.value e (by omega)) fun _ _ _ => .pure
  · split
    · next hcomparison =>
      have hne : c.token ≠ .eof := fun heof => by
        rw [heof] at hcomparison
        cases hcomparison
      have hnext := Cursor.left_next rfl hne
      exact .advance (.bind (ih.value _ (by omega)) fun _ _ _ => .pure)
    · exact .unexpected

theorem Ending.choices_succ (hc : 4 * c.left + 2 ≤ depth + 1) :
    Ends (Grammar.choices (depth + 1)) c := by
  refine .accept nofun (fun _ => .peek ?_) (ih.value c (by omega))
  split
  · exact .bind (ih.select _ (by omega)) fun _ _ _ => .bind .symbol fun _ _ _ => .pure
  · exact .bind (.list (fun d hd => ih.value d (by omega)) c.next (Nat.le_refl _)) fun _ _ _ =>
      .bind .symbol fun _ _ _ => .pure

omit ih

theorem ending (depth : Nat) : Ending depth := by
  induction depth with
  | zero =>
    constructor <;> intros <;> omega
  | succ depth ih =>
    exact ⟨ih.value_succ, ih.braces_succ, ih.select_succ, ih.filter_succ, ih.disjunction_succ,
      ih.conjunction_succ, ih.unary_succ, fun field c => ih.test_succ c field, ih.choices_succ⟩

end Nested

section Statements

variable {depth : Nat} {c : Cursor}

theorem left_lt_of_value {v : Operand} {d : Cursor} (h : value depth c = .done v d) :
    d.left < c.left := by
  obtain ⟨ts, hts, hv⟩ := yields_value depth c v d h
  have hpos := length_pos_of_startsValue (front_value hv).1
  rw [← Cursor.length_tokens, ← Cursor.length_tokens, hts, List.length_append]
  omega

theorem left_lt_of_body {s : Statement} {d : Cursor} (h : body depth c = .done s d) :
    d.left < c.left := by
  obtain ⟨ts, hts, hs⟩ := yields_body depth c s d h
  obtain ⟨t, us, rfl, -⟩ := exists_front_body hs
  rw [← Cursor.length_tokens, ← Cursor.length_tokens, hts, List.length_append, List.length_cons]
  omega

theorem ends_keysUpTo (limit : Nat) : ∀ c : Cursor, 4 * c.left + 1 ≤ depth → c.left < limit →
    Ends (keysUpTo depth limit) c := by
  induction limit with
  | zero => exact fun _ _ hlimit => absurd hlimit (Nat.not_lt_zero _)
  | succ limit ih =>
    intro c hc hlimit
    refine .accept nofun (fun hnext => ?_) (.peek ?_)
    · exact .bind ((ending depth).value _ (by omega)) fun _ d _ =>
        .bind (ih d (by omega) (by omega)) fun _ _ _ => .pure
    · split
      · -- No comma makes up for this round, but the value does.
        refine .bind_of_done ((ending depth).value c hc) fun _ d hd => ?_
        have hlt := left_lt_of_value hd
        exact .bind (ih d (by omega) (by omega)) fun _ _ _ => .pure
      · exact .pure

theorem ends_keys (hc : 4 * c.left + 1 ≤ depth) : Ends (keys depth) c := by
  refine .bind ((ending depth).value c hc) fun _ d hd => .bind ?_ fun _ _ _ => .pure
  exact (ends_keysUpTo _ d (by omega) (Nat.lt_succ_self _)).of_eq (Nat.le_refl _) rfl

theorem ends_assignment (hc : 4 * c.left + 1 ≤ depth) : Ends (assignment depth) c :=
  .bind .name fun _ _ _ => .bind .symbol fun _ d _ =>
    .bind ((ending depth).value d (by omega)) fun _ _ _ => .pure

theorem ends_assignments (hc : 4 * c.left + 1 ≤ depth) : Ends (assignments depth) c := by
  refine .accept nofun (fun hnext => ?_) .pure
  refine .bind (.list (fun d hd => ends_assignment ?_) c.next (Nat.le_refl _)) fun _ _ _ =>
    .bind .symbol fun _ _ _ => .pure
  omega

theorem ends_payloadDocument (hc : 4 * c.left + 1 ≤ depth) : Ends (payloadDocument depth) c := by
  have hdocument : ∀ d : Cursor, d.left ≤ c.left → Ends (document depth) d :=
    fun d hd => ends_document depth d (by omega)
  refine .peek ?_
  split
  · exact .advance (.bind (ends_objectBody hdocument _ c.left_next_le) fun _ _ _ => .pure)
  · exact .bind (hdocument c (Nat.le_refl _)) fun _ _ _ => .pure
  · exact .bind ((ending depth).value c hc) fun _ _ _ => .pure
  · exact .pure

theorem ends_payload (hc : 4 * c.left + 1 ≤ depth) : Ends (payload depth) c := by
  refine .bind (ends_assignments hc) fun _ d _ =>
    .bind (ends_payloadDocument (by omega)) fun _ _ _ => ?_
  split
  · exact .unexpected
  · exact .formed

theorem ends_lifetime : Ends lifetime c := by
  refine .bind .count fun amount d _ => .peek ?_
  split
  · split
    · split
      · exact .advance .pure
      · exact .fail
    · exact .unexpected
  · exact .unexpected

theorem ends_insert (hc : 4 * c.left + 1 ≤ depth) : Ends (insert depth) c := by
  have hinto : ∀ d : Cursor, d.left ≤ c.left → Ends (insertInto depth) d := by
    intro d hd
    refine .bind .name fun _ c₁ _ => .bind (ends_payload (by omega)) fun _ c₂ _ => .peek ?_
    split
    · exact .bind ends_lifetime fun _ _ _ => .pure
    · exact .pure
  exact .accept nofun (fun _ => hinto _ c.left_next_le) (hinto c (Nat.le_refl _))

theorem ends_update (hc : 4 * c.left + 1 ≤ depth) : Ends (update depth) c :=
  .bind .name fun _ _ _ => .bind (ends_payload (by omega)) fun _ _ _ => .pure

theorem ends_delete (hc : 4 * c.left + 1 ≤ depth) : Ends (delete depth) c :=
  .bind (ends_fields c) fun _ _ _ => .bind .keyword fun _ _ _ => .bind .name fun _ d _ =>
    .bind ((ending depth).filter d (by omega)) fun _ _ _ => .pure

theorem ends_put (hc : 4 * c.left + 1 ≤ depth) : Ends (put depth) c := by
  have hvalue : ∀ d : Cursor, d.left ≤ c.left → Ends (value depth) d :=
    fun d hd => (ending depth).value d (by omega)
  refine .bind .symbol fun _ c₁ h₁ => .bind (hvalue c₁ h₁) fun _ c₂ h₂ => ?_
  refine .bind .symbol fun _ c₃ h₃ => .bind (hvalue c₃ (by omega)) fun _ c₄ _ => ?_
  refine .accept nofun (fun _ => ?_) (.pure_bind (.bind .symbol fun _ _ _ => .pure))
  exact .bind ends_lifetime fun _ _ _ => .pure_bind (.bind .symbol fun _ _ _ => .pure)

theorem ends_body (c : Cursor) (hc : 4 * c.left + 2 ≤ depth) : Ends (body depth) c := by
  have hnext := c.left_next_le
  refine .peek ?_
  split
  · exact .bind ((ending depth).select c hc) fun _ _ _ => .pure
  · exact .advance (.bind (ends_insert (by omega)) fun _ _ _ => .pure)
  · exact .advance (.bind (ends_update (by omega)) fun _ _ _ => .pure)
  · exact .advance (.bind (ends_delete (by omega)) fun _ _ _ => .pure)
  · exact .advance (.bind (ends_keys (by omega)) fun _ _ _ => .pure)
  · exact .advance (.bind (ends_put (by omega)) fun _ _ _ => .pure)
  · exact .advance (.bind (ends_keys (by omega)) fun _ _ _ => .pure)
  · exact .unexpected

theorem ends_statement (hc : 4 * c.left + 2 ≤ depth) : Ends (statement depth) c := by
  have hend : ∀ (s : Statement) (d : Cursor), Ends (do
      if (← Rule.peek) = .eof then Pure.pure s else Rule.unexpected .endOfInput) d := by
    intro s d
    refine .peek ?_
    split
    · exact .pure
    · exact .unexpected
  exact .bind (ends_body c hc) fun s d _ => .accept nofun (fun _ => hend s _) (hend s d)

/-- A round of a script takes a token, so that there are fewer of them than rounds. -/
theorem ends_scriptUpTo (limit : Nat) : ∀ c : Cursor, 4 * c.left + 2 ≤ depth → c.left < limit →
    Ends (scriptUpTo depth limit) c := by
  induction limit with
  | zero => exact fun _ _ hlimit => absurd hlimit (Nat.not_lt_zero _)
  | succ limit ih =>
    intro c hc hlimit
    refine .accept nofun (fun hnext => ih _ (by omega) (by omega)) (.peek ?_)
    split
    · exact .pure
    · refine .bind_of_done (ends_body c hc) fun s d hd => .peek ?_
      have hlt := left_lt_of_body hd
      split
      · exact .bind (ih d (by omega) (by omega)) fun _ _ _ => .pure
      · exact .unexpected

theorem ends_script (hc : 4 * c.left + 2 ≤ depth) : Ends (script depth) c :=
  (ends_scriptUpTo _ c hc (Nat.lt_succ_self _)).of_eq (Nat.le_refl _) rfl

end Statements

section Run

variable {α : Type} {rule : Nat → Rule α} {text : String}

inductive IsRead (rule : Nat → Rule α) (text : String) : Reading α → Prop
  | done {a : α} {c : Cursor}
    (h : rule (nesting (Lexeme.scan text)) (.start (Lexeme.scan text)) = .done a c) :
    IsRead rule text ⟨.ok a, distinct c.mentioned⟩
  | failed {e : QueryError} {c : Cursor}
    (h : rule (nesting (Lexeme.scan text)) (.start (Lexeme.scan text)) = .failed e c) :
    IsRead rule text ⟨.error e, distinct c.mentioned⟩

variable (hends : ∀ depth (c : Cursor), 4 * c.left + 2 ≤ depth → Ends (rule depth) c)

include hends

theorem Rule.isRead_run (text : String) : IsRead rule text (Rule.run rule text) := by
  have hends := hends (nesting (Lexeme.scan text)) (.start (Lexeme.scan text))
    (Nat.add_le_add_left (by decide) _)
  unfold Rule.run
  dsimp only
  split
  · next hdone => exact .done hdone
  · next hfailed => exact .failed hfailed
  · next hexhausted => exact absurd hexhausted hends.ne_exhausted

/-- A rule that ends with the nesting its tokens can need is refused only where a token is. -/
theorem Rule.exists_failed_of_run {e : QueryError} (h : (Rule.run rule text).result = .error e) :
    ∃ d, rule (nesting (Lexeme.scan text)) (.start (Lexeme.scan text)) = .failed e d := by
  have hread := Rule.isRead_run hends text
  generalize Rule.run rule text = reading at hread h
  cases hread with
  | done => cases h
  | failed hfailed =>
    cases h
    exact ⟨_, hfailed⟩

end Run

end StoreQuery.Grammar

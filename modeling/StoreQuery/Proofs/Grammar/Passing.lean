import StoreQuery.Grammar.Statement

/-! # What rules note of the tokens they pass

A rule ends, with a result or with an error, some tokens after the one where it began. The
parameters that have been noted there are those of the tokens in between, whether or not the rule
could make anything of them. No invalid token is passed. An error of the grammar is placed where the
rule ends, and blames the token there.
-/

namespace StoreQuery

def Token.parameter? : Token → Option String
  | parameter p => some p
  | _ => none

/-- Whether a token is a part of a text that no token can be read from. -/
def Token.isInvalid : Token → Bool
  | invalid _ => true
  | _ => false

def Token.isPlain (t : Token) : Bool :=
  t.parameter?.isNone && !t.isInvalid

theorem Token.isPlain_iff {t : Token} :
    t.isPlain = true ↔ t.parameter? = none ∧ t.isInvalid = false := by
  rw [isPlain, Bool.and_eq_true, Option.isNone_iff_eq_none, Bool.not_eq_true']

/-- Whether a fault can be the one of a token. What was found is the token, and a number that is out
of range is no end of a text. -/
def GrammarFault.Blames : GrammarFault → Token → Prop
  | unexpected _ found, t => found = t
  | integerOutOfRange, t | negativeCount, t | lifetimeOutOfRange, t => t ≠ .eof

namespace Grammar

namespace Cursor

/-- The cursor after its token, whose parameter has been noted. -/
def pass (c : Cursor) : Cursor :=
  { c.next with mentioned := c.mentioned ++ c.token.parameter?.toList }

theorem pass_eq_next {c : Cursor} (h : c.token.parameter? = none) : c.pass = c.next := by
  obtain ⟨rest, place, mentioned⟩ := c
  cases rest <;> simp [next, pass, h]

/-- A cursor becomes another one by passing tokens, none of which is invalid. -/
inductive Leads : Cursor → Cursor → Prop where
  | refl (c : Cursor) : Leads c c
  | step {c d : Cursor} (hvalid : c.token.isInvalid = false) (h : Leads c.pass d) : Leads c d

theorem Leads.trans {c d e : Cursor} (h : Leads c d) (h' : Leads d e) : Leads c e := by
  induction h with
  | refl => exact h'
  | step hvalid _ ih => exact .step hvalid (ih h')

/-- Where tokens were passed, their parameters have been noted, the place is the end of the last
one, and none of them is invalid. -/
theorem Leads.exists_passed {c d : Cursor} (h : Leads c d) : ∃ ls, c.rest = ls ++ d.rest ∧
    d.mentioned = c.mentioned ++ ls.filterMap (fun l => l.token.parameter?) ∧
    d.place = (ls.getLast?.map fun l => l.span.stop).getD c.place ∧
    ∀ l ∈ ls, l.token.isInvalid = false := by
  induction h with
  | refl c => exact ⟨[], rfl, (List.append_nil _).symm, rfl, nofun⟩
  | @step c d hvalid _ ih =>
    obtain ⟨ls, hrest, hmentioned, hplace, hls⟩ := ih
    obtain ⟨_ | ⟨l, rest⟩, place, mentioned⟩ := c
    · rw [pass_eq_next rfl] at hrest hmentioned hplace
      exact ⟨ls, hrest, hmentioned, hplace, hls⟩
    · refine ⟨l :: ls, congrArg (l :: ·) hrest, ?_, ?_, List.forall_mem_cons.2 ⟨hvalid, hls⟩⟩
      · rw [hmentioned, pass, token]
        cases hl : l.token.parameter? <;> simp [hl]
      · rw [hplace, List.getLast?_cons]
        cases ls.getLast? <;> rfl

end Cursor

def Reply.cursor? {α : Type} : Reply α → Option Cursor
  | .done _ c | .failed _ c => some c
  | .exhausted => none

open Rule

variable {α β : Type} {r : Rule α} {f : α → Rule β} {c : Cursor}

structure Cursor.IsBlamed (c : Cursor) (e : GrammarError) : Prop where
  span_eq : e.span = c.span
  blames : e.fault.Blames c.token

/-- Wherever a rule ends, it has passed tokens and noted their parameters; an error of the grammar
is the one of the token there. -/
structure Notes (r : Rule α) (c : Cursor) : Prop where
  leads : ∀ d, (r c).cursor? = some d → c.Leads d
  placed : ∀ e d, r c = .failed (.grammar e) d → d.IsBlamed e

namespace Notes

theorem of_eq {r' : Rule α} {d : Cursor} (h : Notes r' d)
    (hd : d = c ∨ d = c.pass ∧ c.token.isInvalid = false) (heq : r c = r' d) : Notes r c where
  leads e he := by
    rw [heq] at he
    rcases hd with rfl | ⟨rfl, hvalid⟩
    · exact h.leads e he
    · exact .step hvalid (h.leads e he)
  placed e d' he := h.placed e d' (heq ▸ he)

theorem pure {a : α} : Notes (Pure.pure a) c where
  leads := by
    rintro _ ⟨⟩
    exact .refl c
  placed := by
    rintro _ _ ⟨⟩

theorem fail {fault : GrammarFault} (h : fault.Blames c.token) :
    Notes (Rule.fail fault : Rule α) c where
  leads := by
    rintro _ ⟨⟩
    exact .refl c
  placed := by
    rintro _ _ ⟨⟩
    exact ⟨rfl, h⟩

theorem unexpected {wanted : Expectation} : Notes (Rule.unexpected wanted : Rule α) c := by
  have hfail : Notes (Rule.fail (.unexpected wanted c.token) : Rule α) c := fail rfl
  exact of_eq hfail (Or.inl rfl) rfl

theorem exhausted : Notes (Rule.exhausted : Rule α) c := by
  constructor
  · rintro _ ⟨⟩
  · rintro _ _ ⟨⟩

/-- Forming a part of a statement places no error: its errors are not those of the grammar. -/
theorem formed {x : Except QueryError α} (hx : ∀ e, x ≠ .error (.grammar e)) :
    Notes (Rule.formed x) c := by
  cases x with
  | ok a => exact pure
  | error e =>
    constructor
    · rintro _ ⟨⟩
      exact .refl c
    · rintro e' _ ⟨⟩
      exact absurd rfl (hx e')

theorem bind (hr : Notes r c) (hf : ∀ a d, Notes (f a) d) : Notes (r >>= f) c := by
  cases hrc : r c with
  | done a c₁ =>
    have heq : (r >>= f) c = f a c₁ := by rw [bind_apply, hrc]
    constructor
    · intro d h
      rw [heq] at h
      exact (hr.leads c₁ (by rw [hrc, Reply.cursor?])).trans ((hf a c₁).leads d h)
    · intro e d h
      exact (hf a c₁).placed e d (heq ▸ h)
  | failed e c₁ =>
    have heq : (r >>= f) c = .failed e c₁ := by rw [bind_apply, hrc]
    constructor
    · intro d h
      rw [heq] at h
      exact hr.leads d (by rw [hrc]; exact h)
    · intro e' d h
      rw [heq] at h
      cases h
      exact hr.placed e' c₁ hrc
  | exhausted =>
    have heq : (r >>= f) c = .exhausted := by rw [bind_apply, hrc]
    constructor
    · intro d h
      rw [heq] at h
      cases h
    · intro e d h
      rw [heq] at h
      cases h

theorem pure_bind {a : α} (h : Notes (f a) c) : Notes (Pure.pure a >>= f) c :=
  of_eq h (Or.inl rfl) rfl

theorem peek {g : Token → Rule β} (h : Notes (g c.token) c) : Notes (Rule.peek >>= g) c :=
  of_eq h (Or.inl rfl) rfl

theorem of_next {r' : Rule α} {t : Token} (h : Notes r' c.next) (ht : c.token = t)
    (hp : t.isPlain = true) (heq : r c = r' c.next) : Notes r c := by
  obtain ⟨hparameter, hvalid⟩ := Token.isPlain_iff.1 (ht ▸ hp)
  exact of_eq h (Or.inr ⟨(Cursor.pass_eq_next hparameter).symm, hvalid⟩) heq

theorem advance {g : Unit → Rule β} {t : Token} (ht : c.token = t) (hp : t.isPlain = true)
    (h : Notes (g ()) c.next) : Notes (Rule.advance >>= g) c :=
  of_next h ht hp rfl

theorem parameter {g : Unit → Rule β} {p : String} (ht : c.token = .parameter p)
    (h : Notes (g ()) c.pass) :
    Notes (Rule.mention p >>= fun _ => Rule.advance >>= g) c := by
  have hpass : { c with mentioned := c.mentioned ++ [p] }.next = c.pass := by
    obtain ⟨_ | _, place, mentioned⟩ := c
    · cases ht
    · rw [Cursor.pass, ht]
      rfl
  exact of_eq h (Or.inr ⟨rfl, by rw [ht]; rfl⟩) (congrArg (g ()) hpass)

theorem accept {g : Bool → Rule β} {t : Token} (hp : t.isPlain = true)
    (htrue : Notes (g true) c.next) (hfalse : Notes (g false) c) :
    Notes (Rule.accept t >>= g) c := by
  by_cases ht : c.token = t
  · have heq : (Rule.accept t >>= g) c = g true c.next := by
      rw [bind_apply, Rule.accept, if_pos ht]
    exact of_next htrue ht hp heq
  · have heq : (Rule.accept t >>= g) c = g false c := by
      rw [bind_apply, Rule.accept, if_neg ht]
    exact of_eq hfalse (Or.inl rfl) heq

theorem symbol {s : Symbol} : Notes (Rule.symbol s) c :=
  accept rfl pure unexpected

theorem keyword {k : Keyword} : Notes (Rule.keyword k) c :=
  accept rfl pure unexpected

theorem name : Notes Rule.name c := by
  refine peek ?_
  split
  · next ht => exact advance ht rfl pure
  · exact unexpected

theorem text : Notes Rule.text c := by
  refine peek ?_
  split
  · next ht => exact advance ht rfl pure
  · exact unexpected

theorem count : Notes Rule.count c := by
  refine peek ?_
  split
  · next ht =>
    split
    · exact fail (ht ▸ nofun)
    · exact advance ht rfl pure
  · exact unexpected

variable {item : Rule α} {separator : Token}

theorem furtherUpTo (hp : separator.isPlain = true) (h : ∀ c, Notes item c) (limit : Nat) :
    ∀ c, Notes (Rule.furtherUpTo separator item limit) c := by
  induction limit with
  | zero => exact fun _ => exhausted
  | succ limit ih =>
    intro c
    refine accept hp ?_ pure
    exact bind (h _) fun a d => bind (ih d) fun as e => pure

theorem further (hp : separator.isPlain = true) (h : ∀ c, Notes item c) (c : Cursor) :
    Notes (Rule.further separator item) c :=
  of_eq (furtherUpTo hp h _ c) (Or.inl rfl) rfl

theorem list (h : ∀ c, Notes item c) (c : Cursor) : Notes (Rule.list item) c :=
  bind (h c) fun _ d => bind (further rfl h d) fun _ _ => pure

end Notes

section Document

theorem notes_negative (c : Cursor) : Notes negative c := by
  refine .peek ?_
  split
  · next ht =>
    split
    · exact .fail (ht ▸ nofun)
    · exact .advance ht rfl .pure
  · next ht => exact .advance ht rfl .pure
  · exact .unexpected

variable {value : Rule Json} (hv : ∀ c, Notes value c)

include hv

theorem notes_member (c : Cursor) : Notes (member value) c :=
  .bind .text fun _ _ => .bind .symbol fun _ d => .bind (hv d) fun _ _ => .pure

theorem notes_objectFrom (key : String) (c : Cursor) : Notes (objectFrom key value) c :=
  .bind .symbol fun _ c₁ => .bind (hv c₁) fun _ c₂ =>
    .bind (.further rfl (notes_member hv) c₂) fun _ _ => .bind .symbol fun _ _ => .pure

theorem notes_objectBody (c : Cursor) : Notes (objectBody value) c :=
  .accept rfl .pure (.bind .text fun key d => notes_objectFrom hv key d)

theorem notes_arrayBody (c : Cursor) : Notes (arrayBody value) c :=
  .accept rfl .pure (.bind (.list hv c) fun _ _ => .bind .symbol fun _ _ => .pure)

omit hv

theorem notes_document (depth : Nat) : ∀ c, Notes (document depth) c := by
  induction depth with
  | zero => exact fun _ => .exhausted
  | succ depth ih =>
    intro c
    refine .peek ?_
    cases ht : c.token with
    | text | integer | float => exact .advance ht rfl .pure
    | keyword k =>
      cases k
      case true | false | null => exact .advance ht rfl .pure
      all_goals exact .unexpected
    | symbol s =>
      cases s
      case minus => exact .advance ht rfl (.bind (notes_negative _) fun _ _ => .pure)
      case leftBrace => exact .advance ht rfl (notes_objectBody ih _)
      case leftBracket => exact .advance ht rfl (notes_arrayBody ih _)
      all_goals exact .unexpected
    | _ => exact .unexpected

end Document

section Clauses

theorem notes_fields (c : Cursor) : Notes fields c := by
  refine .accept rfl .pure (.peek ?_)
  split
  · exact .pure
  · exact .list (fun _ => .name) c

theorem notes_sortKey (c : Cursor) : Notes sortKey c :=
  .bind .name fun _ _ => .accept rfl .pure (.accept rfl .pure .pure)

theorem notes_ordering (c : Cursor) : Notes ordering c :=
  .accept rfl (.bind .keyword fun _ d => .list notes_sortKey d) .pure

theorem notes_clauseCount (k : Keyword) (c : Cursor) : Notes (clauseCount k) c :=
  .accept rfl (.bind .count fun _ _ => .pure) .pure

theorem notes_paging (c : Cursor) : Notes paging c := by
  refine .bind (notes_clauseCount .skip c) fun skip c₁ => ?_
  cases skip with
  | some => exact .bind (notes_clauseCount .limit c₁) fun _ _ => .pure
  | none =>
    refine .bind (notes_clauseCount .limit c₁) fun limit c₂ => ?_
    cases limit with
    | some => exact .bind (notes_clauseCount .skip c₂) fun _ _ => .pure
    | none => exact .pure

end Clauses

theorem withinOf_ne_grammar {n : String} {v : Operand} {e : GrammarError} :
    Condition.withinOf n v ≠ .error (.grammar e) := by
  rw [Condition.withinOf]
  split <;> nofun

theorem ofParts_ne_grammar {assignments : Option (List Condition)} {document : Option Operand}
    {e : GrammarError} : Payload.ofParts assignments document ≠ .error (.grammar e) := by
  unfold Payload.ofParts
  split <;> nofun

theorem isPlain_of_comparison? {t : Token} {o : Comparison} (h : comparison? t = some o) :
    t.isPlain = true := by
  cases t <;> first | rfl | cases h

section Nested

/-- What the rules that are nested in each other note when a number of further ones is allowed. -/
structure Noting (depth : Nat) : Prop where
  value : ∀ c, Notes (value depth) c
  braces : ∀ c, Notes (braces depth) c
  select : ∀ c, Notes (select depth) c
  filter : ∀ c, Notes (filter depth) c
  disjunction : ∀ c, Notes (disjunction depth) c
  conjunction : ∀ c, Notes (conjunction depth) c
  unary : ∀ c, Notes (unary depth) c
  test : ∀ field c, Notes (test depth field) c
  choices : ∀ c, Notes (choices depth) c

variable {depth : Nat} (ih : Noting depth)

include ih

theorem Noting.value_succ (c : Cursor) : Notes (Grammar.value (depth + 1)) c := by
  refine .peek ?_
  cases ht : c.token with
  | text | integer | float => exact .advance ht rfl .pure
  | parameter => exact .parameter ht .pure
  | keyword k =>
    cases k
    case true | false | null => exact .advance ht rfl .pure
    all_goals exact .unexpected
  | symbol s =>
    cases s
    case minus => exact .advance ht rfl (.bind (notes_negative _) fun _ _ => .pure)
    case leftBrace => exact .advance ht rfl (ih.braces _)
    case leftBracket => exact .bind (notes_document _ c) fun _ _ => .pure
    case leftParen =>
      exact .advance ht rfl (.bind (ih.select _) fun _ _ => .bind .symbol fun _ _ => .pure)
    all_goals exact .unexpected
  | _ => exact .unexpected

theorem Noting.braces_succ (c : Cursor) : Notes (Grammar.braces (depth + 1)) c := by
  refine .peek ?_
  split
  · next ht =>
    refine .advance ht rfl (.peek ?_)
    split
    · exact .bind (notes_objectFrom (notes_document depth) _ _) fun _ _ => .pure
    · exact .bind (.further rfl ih.value _) fun _ _ => .bind .symbol fun _ _ => .pure
  · next ht => exact .advance ht rfl .pure
  · exact .bind (.list ih.value c) fun _ _ => .bind .symbol fun _ _ => .pure

theorem Noting.select_succ (c : Cursor) : Notes (Grammar.select (depth + 1)) c := by
  refine .bind .keyword fun _ c₁ => .bind (notes_fields c₁) fun _ _ => .bind .keyword fun _ _ => ?_
  refine .bind .name fun _ c₂ => .bind (ih.filter c₂) fun _ c₃ => ?_
  exact .bind (notes_ordering c₃) fun _ c₄ => .bind (notes_paging c₄) fun _ _ => .pure

theorem Noting.filter_succ (c : Cursor) : Notes (Grammar.filter (depth + 1)) c :=
  .accept rfl (.bind (ih.disjunction _) fun _ _ => .pure) .pure

theorem Noting.disjunction_succ (c : Cursor) : Notes (Grammar.disjunction (depth + 1)) c :=
  .bind (ih.conjunction c) fun _ d => .bind (.further rfl ih.conjunction d) fun _ _ => .pure

theorem Noting.conjunction_succ (c : Cursor) : Notes (Grammar.conjunction (depth + 1)) c :=
  .bind (ih.unary c) fun _ d => .bind (.further rfl ih.unary d) fun _ _ => .pure

theorem Noting.unary_succ (c : Cursor) : Notes (Grammar.unary (depth + 1)) c := by
  refine .accept rfl ?_ (.accept rfl ?_ ?_)
  · exact .bind (ih.unary _) fun _ _ => .pure
  · exact .bind (ih.disjunction _) fun _ _ => .bind .symbol fun _ _ => .pure
  · exact .bind .name fun field d => ih.test field d

theorem Noting.test_succ (field : String) (c : Cursor) :
    Notes (Grammar.test (depth + 1) field) c := by
  refine .accept rfl ?_ (.accept rfl ?_ (.peek ?_))
  · exact .bind (ih.choices _) fun _ _ => .formed fun _ => withinOf_ne_grammar
  · exact .bind (ih.value _) fun _ _ => .bind .keyword fun _ d =>
      .bind (ih.value d) fun _ _ => .pure
  · split
    · next hc =>
      exact .advance rfl (isPlain_of_comparison? hc) (.bind (ih.value _) fun _ _ => .pure)
    · exact .unexpected

theorem Noting.choices_succ (c : Cursor) : Notes (Grammar.choices (depth + 1)) c := by
  refine .accept rfl (.peek ?_) (ih.value c)
  split
  · exact .bind (ih.select _) fun _ _ => .bind .symbol fun _ _ => .pure
  · exact .bind (.list ih.value _) fun _ _ => .bind .symbol fun _ _ => .pure

omit ih

theorem noting (depth : Nat) : Noting depth := by
  induction depth with
  | zero =>
    exact ⟨fun _ => .exhausted, fun _ => .exhausted, fun _ => .exhausted, fun _ => .exhausted,
      fun _ => .exhausted, fun _ => .exhausted, fun _ => .exhausted, fun _ _ => .exhausted,
      fun _ => .exhausted⟩
  | succ depth ih =>
    exact ⟨ih.value_succ, ih.braces_succ, ih.select_succ, ih.filter_succ, ih.disjunction_succ,
      ih.conjunction_succ, ih.unary_succ, ih.test_succ, ih.choices_succ⟩

end Nested

section Statement

variable (depth : Nat)

theorem notes_value (c : Cursor) : Notes (value depth) c :=
  (noting depth).value c

theorem notes_keysUpTo (limit : Nat) : ∀ c, Notes (keysUpTo depth limit) c := by
  induction limit with
  | zero => exact fun _ => .exhausted
  | succ limit ih =>
    intro c
    have hkey : ∀ c, Notes (do
        let x ← value depth
        let xs ← keysUpTo depth limit
        pure (x :: xs)) c := fun c =>
      .bind (notes_value depth c) fun _ d => .bind (ih d) fun _ _ => .pure
    refine .accept rfl (hkey _) (.peek ?_)
    split
    · exact hkey c
    · exact .pure

theorem notes_keys (c : Cursor) : Notes (keys depth) c :=
  .bind (notes_value depth c) fun _ d =>
    .bind (.of_eq (notes_keysUpTo depth _ d) (Or.inl rfl) rfl) fun _ _ => .pure

theorem notes_assignment (c : Cursor) : Notes (assignment depth) c :=
  .bind .name fun _ _ => .bind .symbol fun _ d => .bind (notes_value depth d) fun _ _ => .pure

theorem notes_assignments (c : Cursor) : Notes (assignments depth) c := by
  refine .accept rfl ?_ .pure
  exact .bind (.list (notes_assignment depth) _) fun _ _ => .bind .symbol fun _ _ => .pure

theorem notes_payloadDocument (c : Cursor) : Notes (payloadDocument depth) c := by
  refine .peek ?_
  split
  · next ht =>
    refine .advance ht rfl ?_
    exact .bind (notes_objectBody (notes_document depth) _) fun _ _ => .pure
  · exact .bind (notes_document depth c) fun _ _ => .pure
  · exact .bind (notes_value depth c) fun _ _ => .pure
  · exact .pure

theorem notes_payload (c : Cursor) : Notes (payload depth) c := by
  refine .bind (notes_assignments depth c) fun conditions d => ?_
  refine .bind (notes_payloadDocument depth d) fun operand _ => ?_
  split
  · exact .unexpected
  · exact .formed fun _ => ofParts_ne_grammar

theorem notes_lifetime (c : Cursor) : Notes lifetime c := by
  refine .bind .count fun amount d => .peek ?_
  split
  · next ht =>
    split
    · split
      · exact .advance ht rfl .pure
      · exact .fail (ht ▸ nofun)
    · exact .unexpected
  · exact .unexpected

theorem notes_insert (c : Cursor) : Notes (insert depth) c := by
  have hinto : ∀ c, Notes (insertInto depth) c := by
    refine fun c => .bind .name fun _ c₁ => .bind (notes_payload depth c₁) fun _ c₂ => .peek ?_
    split
    · exact .bind (notes_lifetime c₂) fun _ _ => .pure
    · exact .pure
  exact .accept rfl (hinto _) (hinto c)

theorem notes_update (c : Cursor) : Notes (update depth) c :=
  .bind .name fun _ d => .bind (notes_payload depth d) fun _ _ => .pure

theorem notes_delete (c : Cursor) : Notes (delete depth) c :=
  .bind (notes_fields c) fun _ _ => .bind .keyword fun _ _ => .bind .name fun _ d =>
    .bind ((noting depth).filter d) fun _ _ => .pure

theorem notes_put (c : Cursor) : Notes (put depth) c := by
  refine .bind .symbol fun _ c₁ => .bind (notes_value depth c₁) fun _ _ => ?_
  refine .bind .symbol fun _ c₂ => .bind (notes_value depth c₂) fun _ _ => ?_
  refine .accept rfl ?_ (.pure_bind (.bind .symbol fun _ _ => .pure))
  exact .bind (notes_lifetime _) fun _ _ => .pure_bind (.bind .symbol fun _ _ => .pure)

theorem notes_body (c : Cursor) : Notes (body depth) c := by
  refine .peek ?_
  split
  · exact .bind ((noting depth).select c) fun _ _ => .pure
  · next ht => exact .advance ht rfl (.bind (notes_insert depth _) fun _ _ => .pure)
  · next ht => exact .advance ht rfl (.bind (notes_update depth _) fun _ _ => .pure)
  · next ht => exact .advance ht rfl (.bind (notes_delete depth _) fun _ _ => .pure)
  · next ht => exact .advance ht rfl (.bind (notes_keys depth _) fun _ _ => .pure)
  · next ht => exact .advance ht rfl (.bind (notes_put depth _) fun _ _ => .pure)
  · next ht => exact .advance ht rfl (.bind (notes_keys depth _) fun _ _ => .pure)
  · exact .unexpected

theorem notes_statement (c : Cursor) : Notes (statement depth) c := by
  have hend : ∀ (s : Statement) c, Notes (do
      if (← peek) = .eof then pure s else unexpected .endOfInput) c := by
    intro s c
    refine .peek ?_
    split
    · exact .pure
    · exact .unexpected
  exact .bind (notes_body depth c) fun s d => .accept rfl (hend s _) (hend s d)

theorem notes_scriptUpTo (limit : Nat) : ∀ c, Notes (scriptUpTo depth limit) c := by
  induction limit with
  | zero => exact fun _ => .exhausted
  | succ limit ih =>
    intro c
    refine .accept rfl (ih _) (.peek ?_)
    split
    · exact .pure
    · refine .bind (notes_body depth c) fun s d => .peek ?_
      split
      · exact .bind (ih d) fun _ _ => .pure
      · exact .unexpected

theorem notes_script (c : Cursor) : Notes (script depth) c :=
  .of_eq (notes_scriptUpTo depth _ c) (Or.inl rfl) rfl

end Statement

end Grammar

end StoreQuery

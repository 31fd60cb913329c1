import StoreQuery.Proofs.Grammar.Derivation
import StoreQuery.Proofs.Grammar.Reading

/-! # Values and conditions that are read

What is read of documents and clauses can be derived. For the rules of values, selects and
conditions, which are nested in each other, this is shown by induction on the nesting that is
allowed.
-/

namespace StoreQuery.Grammar

open Rule

theorem yields_negative (c : Cursor) :
    Yields negative c fun ts v => Produces .number (.symbol .minus :: ts) v := by
  refine .peek ?_
  split
  · next n ht =>
    split
    · exact .fail
    · next hn => exact .advance ht nofun (.pure (.minusInteger hn))
  · next x ht => exact .advance ht nofun (.pure .minusFloat)
  · exact .unexpected

section Document

variable {value : Rule Json} (hv : ∀ c, Yields value c (Produces .document))

include hv

theorem yields_member (c : Cursor) : Yields (member value) c (Produces .member) := by
  refine .bind .text ?_
  rintro _ key c₁ rfl
  refine .bind .symbol ?_
  rintro _ _ c₂ rfl
  refine .bind (hv c₂) fun ts j c₃ hj => .pure ?_
  rw [List.append_nil]
  exact .member hj

theorem yields_objectFrom (key : String) (c : Cursor) :
    Yields (objectFrom key value) c
      fun ts j => Produces .object (.symbol .leftBrace :: .text key :: ts) j := by
  refine .bind .symbol ?_
  rintro _ _ c₁ rfl
  refine .bind (hv c₁) fun ts j c₂ hj => ?_
  refine .bind (.further (by nofun) (yields_member hv) c₂) fun us ms c₃ hms => ?_
  refine .bind .symbol ?_
  rintro _ _ c₄ rfl
  exact .pure (.object (.member hj) hms.produces)

theorem yields_objectBody (c : Cursor) :
    Yields (objectBody value) c fun ts j => Produces .object (.symbol .leftBrace :: ts) j := by
  refine .accept nofun (.pure .emptyObject) fun _ => ?_
  refine .bind .text ?_
  rintro _ key c₁ rfl
  exact yields_objectFrom hv key c₁

theorem yields_arrayBody (c : Cursor) :
    Yields (arrayBody value) c fun ts j => Produces .array (.symbol .leftBracket :: ts) j := by
  refine .accept nofun (.pure .emptyArray) fun _ => ?_
  refine .bind (.list hv c) ?_
  rintro _ _ c₁ ⟨ts, us, j, js, rfl, rfl, hj, hjs⟩
  refine .bind .symbol ?_
  rintro _ _ c₂ rfl
  refine .pure ?_
  rw [List.append_assoc]
  exact .array hj hjs.produces

end Document

theorem yields_document (depth : Nat) (c : Cursor) :
    Yields (document depth) c (Produces .document) := by
  induction depth generalizing c with
  | zero => exact .exhausted
  | succ depth ih =>
    refine .peek ?_
    cases ht : c.token with
    | text => exact .advance ht nofun (.pure .documentText)
    | integer => exact .advance ht nofun (.pure (.documentNumber .integer))
    | float => exact .advance ht nofun (.pure (.documentNumber .float))
    | keyword k =>
      cases k
      case true => exact .advance ht nofun (.pure .documentTrue)
      case false => exact .advance ht nofun (.pure .documentFalse)
      case null => exact .advance ht nofun (.pure .documentNull)
      all_goals exact .unexpected
    | symbol s =>
      cases s
      case minus =>
        refine .advance ht nofun (.bind (yields_negative _) fun ts v c' hv => .pure ?_)
        rw [List.append_nil]
        exact .documentNumber hv
      case leftBrace =>
        exact .advance ht nofun ((yields_objectBody ih _).mono fun _ _ => .documentObject)
      case leftBracket =>
        exact .advance ht nofun ((yields_arrayBody ih _).mono fun _ _ => .documentArray)
      all_goals exact .unexpected
    | _ => exact .unexpected

theorem yields_document_array (depth : Nat) {c : Cursor} (hc : c.token = .symbol .leftBracket) :
    Yields (document depth) c (Produces .array) := by
  cases depth with
  | zero => exact .exhausted
  | succ depth =>
    refine .peek ?_
    rw [hc]
    exact .advance hc nofun (yields_arrayBody (yields_document depth) _)

section Clauses

theorem yields_name (c : Cursor) : Yields name c (Produces .name) := by
  refine Yields.name.mono ?_
  rintro _ _ rfl
  exact .name

theorem yields_fields (c : Cursor) : Yields fields c (Produces .fields) := by
  refine .accept nofun (.pure .star) fun _ => .peek ?_
  split
  · exact .pure .noFields
  · refine (Yields.list yields_name c).mono ?_
    rintro _ _ ⟨us, vs, field, others, rfl, rfl, ⟨⟩, hothers⟩
    exact .fields hothers.produces

theorem yields_sortKey (c : Cursor) : Yields sortKey c (Produces .sortKey) := by
  refine .bind .name ?_
  rintro _ field c₁ rfl
  refine .accept nofun (.pure .descending) fun _ => ?_
  exact .accept nofun (.pure .ascending) fun _ => .pure .sortKey

theorem yields_ordering (c : Cursor) : Yields ordering c (Produces .ordering) := by
  refine .accept nofun ?_ fun _ => .pure .noOrdering
  refine .bind .keyword ?_
  rintro _ _ c₁ rfl
  refine (Yields.list yields_sortKey c₁).mono ?_
  rintro _ _ ⟨us, vs, key, others, rfl, rfl, hkey, hothers⟩
  rw [List.singleton_append]
  exact .ordering hkey hothers.produces

theorem yields_count (c : Cursor) : Yields count c (Produces .count) := by
  refine .peek ?_
  split
  · next n ht =>
    split
    · exact .fail
    · next hn => exact .advance ht nofun (.pure (.count (Int64.not_lt.1 hn)))
  · exact .unexpected

def IsClauseCount (k : Keyword) (ts : List Token) : Option UInt64 → Prop
  | some n => ∃ us, ts = .keyword k :: us ∧ Produces .count us n
  | none => ts = []

theorem yields_clauseCount (k : Keyword) (c : Cursor) :
    Yields (clauseCount k) c (IsClauseCount k) := by
  refine .accept nofun ?_ fun _ => .pure rfl
  refine .bind (yields_count _) fun ts n c₁ hn => .pure ⟨ts, ?_, hn⟩
  rw [List.append_nil]

theorem yields_paging (c : Cursor) : Yields paging c (Produces .paging) := by
  refine .bind (yields_clauseCount .skip c) fun ts skip c₁ hskip => ?_
  cases skip with
  | some m =>
    obtain ⟨us, rfl, hm⟩ := hskip
    refine .bind (yields_clauseCount .limit c₁) fun vs limit c₂ hlimit => .pure ?_
    cases limit with
    | some n =>
      obtain ⟨vs, rfl, hn⟩ := hlimit
      rw [List.append_nil]
      exact .skipLimit hm hn
    | none =>
      rw [show vs = [] from hlimit, List.append_nil, List.append_nil]
      exact .skip hm
  | none =>
    rw [show ts = [] from hskip]
    refine .bind (yields_clauseCount .limit c₁) fun us limit c₂ hlimit => ?_
    cases limit with
    | some n =>
      obtain ⟨us, rfl, hn⟩ := hlimit
      refine .bind (yields_clauseCount .skip c₂) fun vs skip c₃ hskip => .pure ?_
      cases skip with
      | some m =>
        obtain ⟨vs, rfl, hm⟩ := hskip
        rw [List.append_nil]
        exact .limitSkip hn hm
      | none =>
        rw [show vs = [] from hskip, List.append_nil, List.append_nil]
        exact .limit hn
    | none =>
      rw [show us = [] from hlimit]
      exact .pure .noPaging

end Clauses

section Nested

structure Sound (depth : Nat) : Prop where
  value : ∀ c, Yields (value depth) c (Produces .value)
  braces : ∀ c, Yields (braces depth) c fun ts v => Produces .value (.symbol .leftBrace :: ts) v
  select : ∀ c, Yields (select depth) c (Produces .select)
  filter : ∀ c, Yields (filter depth) c (Produces .filter)
  disjunction : ∀ c, Yields (disjunction depth) c (Produces .condition)
  conjunction : ∀ c, Yields (conjunction depth) c (IsConjunction (Produces .unary))
  unary : ∀ c, Yields (unary depth) c (Produces .unary)
  test : ∀ field c, Yields (test depth field) c (Produces (.predicate field))
  choices : ∀ c, Yields (choices depth) c fun ts v => v.isChoices = true → Produces .choices ts v

variable {depth : Nat} (ih : Sound depth)

include ih

theorem Sound.value_succ (c : Cursor) : Yields (Grammar.value (depth + 1)) c (Produces .value) := by
  refine .peek ?_
  cases ht : c.token with
  | text => exact .advance ht nofun (.pure .valueText)
  | integer => exact .advance ht nofun (.pure (.valueNumber .integer))
  | float => exact .advance ht nofun (.pure (.valueNumber .float))
  | parameter =>
    exact .mention fun c' _ hc' => .advance (hc'.trans ht) nofun (.pure .valueParameter)
  | keyword k =>
    cases k
    case true => exact .advance ht nofun (.pure .valueTrue)
    case false => exact .advance ht nofun (.pure .valueFalse)
    case null => exact .advance ht nofun (.pure .valueNull)
    all_goals exact .unexpected
  | symbol s =>
    cases s
    case minus =>
      refine .advance ht nofun (.bind (yields_negative _) fun ts v c' hv => .pure ?_)
      rw [List.append_nil]
      exact .valueNumber hv
    case leftBrace => exact .advance ht nofun (ih.braces _)
    case leftBracket =>
      refine .bind (yields_document_array _ ht) fun ts j c' hj => .pure ?_
      rw [List.append_nil]
      exact .valueArray hj
    case leftParen =>
      refine .advance ht nofun (.bind (ih.select _) fun ts s c' hs => .bind .symbol ?_)
      rintro _ _ c'' rfl
      exact .pure (.valueSelect hs)
    all_goals exact .unexpected
  | _ => exact .unexpected

theorem Sound.braces_succ (c : Cursor) :
    Yields (Grammar.braces (depth + 1)) c
      fun ts v => Produces .value (.symbol .leftBrace :: ts) v := by
  refine .peek ?_
  split
  · next s ht =>
    refine .advance ht nofun (.peek ?_)
    split
    · refine .bind (yields_objectFrom (yields_document depth) s _) fun ts j c' hj => .pure ?_
      rw [List.append_nil]
      exact .valueObject hj
    · refine .bind (.further (by nofun) ih.value _) fun ts xs c' hxs => .bind .symbol ?_
      rintro _ _ c'' rfl
      exact .pure (.valueList .valueText hxs.produces)
  · next ht => exact .advance ht nofun (.pure (.valueObject .emptyObject))
  · refine .bind (.list ih.value c) ?_
    rintro _ _ c' ⟨ts, us, x, xs, rfl, rfl, hx, hxs⟩
    refine .bind .symbol ?_
    rintro _ _ c'' rfl
    refine .pure ?_
    rw [List.append_assoc]
    exact .valueList hx hxs.produces

theorem Sound.select_succ (c : Cursor) :
    Yields (Grammar.select (depth + 1)) c (Produces .select) := by
  refine .bind .keyword ?_
  rintro _ _ c₁ rfl
  refine .bind (yields_fields c₁) fun ps projection c₂ hps => .bind .keyword ?_
  rintro _ _ c₃ rfl
  refine .bind .name ?_
  rintro _ entity c₄ rfl
  refine .bind (ih.filter c₄) fun ts condition c₅ hts => ?_
  refine .bind (yields_ordering c₅) fun us sorts c₆ hus => ?_
  refine .bind (yields_paging c₆) fun vs paging c₇ hvs => .pure ?_
  simp only [List.append_nil, List.singleton_append]
  exact .select hps hts hus hvs

theorem Sound.filter_succ (c : Cursor) :
    Yields (Grammar.filter (depth + 1)) c (Produces .filter) := by
  refine .accept nofun ?_ fun _ => .pure .noFilter
  refine .bind (ih.disjunction _) fun ts condition c' hts => .pure ?_
  rw [List.append_nil]
  exact .filter hts

theorem Sound.disjunction_succ (c : Cursor) :
    Yields (Grammar.disjunction (depth + 1)) c (Produces .condition) := by
  refine .bind (ih.conjunction c) fun ts first c' hts => ?_
  refine .bind (.further (by nofun) ih.conjunction c') fun us others c'' hus => .pure ?_
  rw [List.append_nil]
  exact IsDisjunction.produces ⟨ts, us, first, others, rfl, hts, hus, rfl⟩

theorem Sound.conjunction_succ (c : Cursor) :
    Yields (Grammar.conjunction (depth + 1)) c (IsConjunction (Produces .unary)) := by
  refine .bind (ih.unary c) fun ts first c' hts => ?_
  refine .bind (.further (by nofun) ih.unary c') fun us others c'' hus => .pure ?_
  rw [List.append_nil]
  exact ⟨ts, us, first, others, rfl, hts, hus, rfl⟩

theorem Sound.unary_succ (c : Cursor) : Yields (Grammar.unary (depth + 1)) c (Produces .unary) := by
  refine .accept nofun ?_ fun _ => .accept nofun ?_ fun _ => ?_
  · refine .bind (ih.unary _) fun ts part c' hts => .pure ?_
    rw [List.append_nil]
    exact .not hts
  · refine .bind (ih.disjunction _) fun ts part c' hts => .bind .symbol ?_
    rintro _ _ c'' rfl
    exact .pure (.parens hts)
  · refine .bind .name ?_
    rintro _ field c' rfl
    exact (ih.test field c').mono fun _ _ => .test

theorem Sound.test_succ (field : String) (c : Cursor) :
    Yields (Grammar.test (depth + 1) field) c (Produces (.predicate field)) := by
  refine .accept nofun ?_ fun _ => .accept nofun ?_ fun _ => .peek ?_
  · refine .bind (ih.choices _) fun ts values c' hts => .formed fun c hc => ?_
    unfold Condition.withinOf at hc
    split at hc
    · next hv =>
      cases hc
      rw [List.append_nil]
      exact .within (hts hv)
    · cases hc
  · refine .bind (ih.value _) fun ts low c' hts => .bind .keyword ?_
    rintro _ _ c'' rfl
    refine .bind (ih.value c'') fun us high c''' hus => .pure ?_
    rw [List.append_nil]
    exact .between hts hus
  · split
    · next comparison hc =>
      have ht : c.token ≠ .eof := by
        intro ht
        rw [ht] at hc
        cases hc
      refine .advance rfl ht (.bind (ih.value _) fun ts v c' hts => .pure ?_)
      rw [List.append_nil]
      exact .compare hc hts
    · exact .unexpected

theorem Sound.choices_succ (c : Cursor) :
    Yields (Grammar.choices (depth + 1)) c
      fun ts v => v.isChoices = true → Produces .choices ts v := by
  refine .accept nofun (.peek ?_) fun _ => (ih.value c).mono fun _ _ hv => .choicesSingle hv
  split
  · refine .bind (ih.select _) fun ts s c' hts => .bind .symbol ?_
    rintro _ _ c'' rfl
    exact .pure (.choicesSingle (.valueSelect hts))
  · refine .bind (.list ih.value _) ?_
    rintro _ _ c' ⟨ts, us, x, xs, rfl, rfl, hx, hxs⟩
    refine .bind .symbol ?_
    rintro _ _ c'' rfl
    refine .pure fun _ => ?_
    rw [List.append_assoc]
    exact .choicesList hx hxs.produces

omit ih

theorem sound (depth : Nat) : Sound depth := by
  induction depth with
  | zero =>
    exact ⟨fun _ => .exhausted, fun _ => .exhausted, fun _ => .exhausted, fun _ => .exhausted,
      fun _ => .exhausted, fun _ => .exhausted, fun _ => .exhausted, fun _ _ => .exhausted,
      fun _ => .exhausted⟩
  | succ depth ih =>
    exact ⟨ih.value_succ, ih.braces_succ, ih.select_succ, ih.filter_succ, ih.disjunction_succ,
      ih.conjunction_succ, ih.unary_succ, ih.test_succ, ih.choices_succ⟩

end Nested

end StoreQuery.Grammar

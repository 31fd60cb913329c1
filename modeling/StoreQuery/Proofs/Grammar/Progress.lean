import StoreQuery.Proofs.Grammar.Descent
import StoreQuery.Proofs.Token.Turns

/-! # Reading goes on and ends

Along the grammar, each production descends: whatever begins in it is named after it or comes behind
a token, and what begins behind it is named after what it ends with. Between two times that a stage
begins there is a token, in whatever text. So the trail of a text is as long as its tokens allow,
and the text is read to a result or to an error.
-/

namespace StoreQuery

namespace Grammar

open Rule

section Document

theorem descends_negative (c : Cursor) :
    Descends Trail.negative c (Stage.rank .negative + 1) 64 := by
  refine .enter (.of_trail (.bind .plain fun _ => .plain) (.peek ?_))
  cases ht : c.token with
  | integer => exact .of_trail (.ite .plain .plain) (.ite .fail (.taken ht nofun))
  | float => exact .taken ht nofun
  | _ => exact .unexpected

section

variable {value : Rule Json} {w : Trail value}
  (h : ∀ d, Descends w d (Stage.rank .document + 1) 64)

include h

theorem descends_member (c : Cursor) :
    Descends (Trail.member w) c (Stage.rank .member + 1) 64 :=
  .enter (.bind .text fun _ _ => .bind .symbol fun _ d => .bind (h d).fresh fun _ _ => .pure)

theorem descends_objectFrom (key : String) (c : Cursor) :
    Descends (Trail.objectFrom w key) c (Stage.rank .objectFrom + 1) 64 := by
  have hmember : ∀ d, Descends (Trail.member w) d 64 64 := fun d => (descends_member h d).fresh
  refine .enter (.bind .symbol fun _ d => .bind (h d).fresh fun _ _ => ?_)
  exact .bind (.fresh (.further nofun hmember (by decide))) fun _ _ =>
    .bind .symbol fun _ _ => .pure

theorem descends_objectBody (c : Cursor) :
    Descends (Trail.objectBody w) c (Stage.rank .objectBody + 1) 64 :=
  .enter (.accept nofun .pure (.bind .text fun key d => (descends_objectFrom h key d).fresh))

theorem descends_arrayBody (c : Cursor) :
    Descends (Trail.arrayBody w) c (Stage.rank .arrayBody + 1) 64 := by
  have hitem : ∀ d, Descends w d 64 64 := fun d => (h d).fresh
  refine .enter (.accept nofun .pure ?_)
  exact .bind (.list ((h c).of_le (by decide)) hitem (by decide)) fun _ _ =>
    .bind .symbol fun _ _ => .pure

end

theorem descends_document (depth : Nat) :
    ∀ c, Descends (Trail.document depth) c (Stage.rank .document + 1) 64 := by
  induction depth with
  | zero => exact fun _ => .exhausted
  | succ depth ih =>
    intro c
    refine .enter (.peek ?_)
    cases ht : c.token with
    | text | integer | float => exact .taken ht nofun
    | keyword k =>
      cases k
      case true | false | null => exact .taken ht nofun
      all_goals exact .unexpected
    | symbol s =>
      cases s
      case minus => exact .advance ht nofun (.bind (descends_negative _).fresh fun _ _ => .pure)
      case leftBrace => exact .advance ht nofun (descends_objectBody ih _).fresh
      case leftBracket => exact .advance ht nofun (descends_arrayBody ih _).fresh
      all_goals exact .unexpected
    | _ => exact .unexpected

end Document

section Clauses

theorem descends_fields (c : Cursor) :
    Descends Trail.fields c (Stage.rank .fields + 1) (Stage.rank .fieldsTurn) := by
  have hpure : Descends (.plain : Trail (pure ([] : List String))) c (Stage.rank .fields)
      (Stage.rank .fieldsTurn) := .of_le .pure (by decide)
  refine .enter (.accept nofun (.of_le .pure (by decide)) (.peek (.ite hpure ?_)))
  exact .list .name (fun _ => .name) (by decide)

theorem descends_sortKey (c : Cursor) :
    Descends Trail.sortKey c (Stage.rank .sortKey + 1) 64 := by
  refine .enter (.of_trail (.bind .plain fun _ => .bind .plain fun _ => .ite .plain .plain) ?_)
  refine .bind .name fun _ _ => .accept nofun .pure ?_
  exact .of_trail (.bind .plain fun _ => .plain) (.bind (.pass nofun) fun _ _ => .pure)

theorem descends_ordering (c : Cursor) :
    Descends Trail.ordering c (Stage.rank .ordering + 1) (Stage.rank .orderingTurn) := by
  have hkey : ∀ d, Descends Trail.sortKey d 64 64 := fun d => (descends_sortKey d).fresh
  refine .enter (.accept nofun ?_ (.of_le .pure (by decide)))
  exact .bind .keyword fun _ d => .list (hkey d) hkey (by decide)

theorem clauseCount_of_eq {k : Keyword} {c : Cursor} (ht : c.token = .keyword k) :
    clauseCount k c = (Rule.count >>= fun n => pure (some n)) c.next := by
  rw [clauseCount, bind_apply, Rule.accept, if_pos ht]
  rfl

theorem clauseCount_of_ne {k : Keyword} {c : Cursor} (ht : c.token ≠ .keyword k) :
    clauseCount k c = .done none c := by
  rw [clauseCount, bind_apply, Rule.accept, if_neg ht]
  rfl

theorem descends_clauseCount {β : Type} {k : Keyword} {g : Option UInt64 → Rule β}
    {w : ∀ n, Trail (g n)} {c : Cursor} {top bottom : Nat}
    (hsome : ∀ n d, Descends (w (some n)) d 64 bottom) (hnone : Descends (w none) c top bottom) :
    Descends (.bind (.plain : Trail (clauseCount k)) w) c top bottom := by
  by_cases ht : c.token = .keyword k
  · have hne : Token.keyword k ≠ .eof := nofun
    have hcount : Descends (.bind (.plain : Trail Rule.count) fun n => w (some n)) c.next 64
        bottom := .bind .count hsome
    refine .of_next ht hne hcount ?_ ?_
    · rw [Trail.visits_bind, Trail.visits_bind, clauseCount_of_eq ht, bind_apply]
      cases Rule.count c.next <;> rfl
    · rw [bind_apply, bind_apply, clauseCount_of_eq ht, bind_apply]
      cases Rule.count c.next <;> rfl
  · refine hnone.of_eq (Nat.le_refl _) ?_ ?_
    · rw [Trail.visits_bind_of_done (clauseCount_of_ne ht)]
      rfl
    · rw [bind_apply, clauseCount_of_ne ht]

theorem descends_paging (c : Cursor) :
    Descends Trail.paging c (Stage.rank .paging + 1) (Stage.rank .pagingTurn) := by
  refine .enter (.of_le (.enter (descends_clauseCount ?_ (descends_clauseCount ?_ .pure)))
    (by decide))
  all_goals
    refine fun _ d => .fresh (.enter (descends_clauseCount (fun _ _ => ?_) .pure))
    exact .of_le .pure (by decide)

end Clauses

section Nested

structure Descending {depth : Nat} (w : Trails depth) : Prop where
  value : ∀ c, Descends w.value c (Stage.rank .value + 1) 64
  braces : ∀ c, Descends w.braces c (Stage.rank .braces + 1) 64
  select : ∀ c, Descends w.select c (Stage.rank .select + 1) (Stage.rank .pagingTurn)
  filter : ∀ c, Descends w.filter c (Stage.rank .filter + 1) (Stage.rank .disjunctionTurn)
  disjunction : ∀ c,
    Descends w.disjunction c (Stage.rank .disjunction + 1) (Stage.rank .disjunctionTurn)
  conjunction : ∀ c,
    Descends w.conjunction c (Stage.rank .conjunction + 1) (Stage.rank .conjunctionTurn)
  unary : ∀ c, Descends w.unary c (Stage.rank .unary + 1) 64
  test : ∀ field c, Descends (w.test field) c (Stage.rank .test + 1) 64
  choices : ∀ c, Descends w.choices c (Stage.rank .choices + 1) 64

variable {depth : Nat} {w : Trails depth} (ih : Descending w)

include ih

theorem Descending.value_succ (c : Cursor) :
    Descends w.valueSucc c (Stage.rank .value + 1) 64 := by
  refine .enter (.peek ?_)
  cases ht : c.token with
  | text | integer | float => exact .taken ht nofun
  | parameter => exact .of_trail (.bind .plain fun _ => .plain) (.mention (.taken ht nofun))
  | keyword k =>
    cases k
    case true | false | null => exact .taken ht nofun
    all_goals exact .unexpected
  | symbol s =>
    cases s
    case minus => exact .advance ht nofun (.bind (descends_negative _).fresh fun _ _ => .pure)
    case leftBrace => exact .advance ht nofun (ih.braces _).fresh
    -- The bracket is left to the document, which begins before the same token.
    case leftBracket =>
      exact .bind ((descends_document _ c).of_le (by decide)) fun _ _ => .pure
    case leftParen =>
      exact .advance ht nofun (.bind (ih.select _).fresh fun _ _ => .bind .symbol fun _ _ => .pure)
    all_goals exact .unexpected
  | _ => exact .unexpected

theorem Descending.braces_succ (c : Cursor) :
    Descends w.bracesSucc c (Stage.rank .braces + 1) 64 := by
  have hvalue : ∀ d, Descends w.value d 64 64 := fun d => (ih.value d).fresh
  have hlist : Descends (.list .bracesTurn w.value) c (Stage.rank .braces)
      (Stage.rank .bracesTurn) := .list ((ih.value c).of_le (by decide)) hvalue (by decide)
  refine .enter (.peek ?_)
  cases ht : c.token with
  | text =>
    refine .advance ht nofun (.peek (.ite ?_ ?_))
    · exact .bind (descends_objectFrom (descends_document depth) _ _).fresh fun _ _ => .pure
    · exact .bind (.fresh (.further nofun hvalue (by decide))) fun _ _ =>
        .bind .symbol fun _ _ => .pure
  | symbol s =>
    cases s
    case rightBrace => exact .taken ht nofun
    all_goals exact .bind hlist fun _ _ => .bind .symbol fun _ _ => .pure
  | _ => exact .bind hlist fun _ _ => .bind .symbol fun _ _ => .pure

theorem Descending.select_succ (c : Cursor) :
    Descends w.selectSucc c (Stage.rank .select + 1) (Stage.rank .pagingTurn) := by
  refine .enter (.bind .keyword fun _ c₁ => .bind (descends_fields c₁).fresh fun _ _ => ?_)
  refine .bind .keyword fun _ _ => .bind .name fun _ c₂ => ?_
  refine .bind (ih.filter c₂).fresh fun _ c₃ => ?_
  exact .bind ((descends_ordering c₃).of_le (by decide)) fun _ c₄ =>
    .bind ((descends_paging c₄).of_le (by decide)) fun _ _ => .pure

theorem Descending.filter_succ (c : Cursor) :
    Descends w.filterSucc c (Stage.rank .filter + 1) (Stage.rank .disjunctionTurn) :=
  .enter (.accept nofun (.bind (ih.disjunction _).fresh fun _ _ => .pure)
    (.of_le .pure (by decide)))

theorem Descending.disjunction_succ (c : Cursor) :
    Descends w.disjunctionSucc c (Stage.rank .disjunction + 1) (Stage.rank .disjunctionTurn) := by
  refine .enter (.bind ((ih.conjunction c).of_le (by decide)) fun _ d => .bind ?_ fun _ _ => .pure)
  exact .further nofun (fun e => (ih.conjunction e).fresh) (by decide)

theorem Descending.conjunction_succ (c : Cursor) :
    Descends w.conjunctionSucc c (Stage.rank .conjunction + 1) (Stage.rank .conjunctionTurn) := by
  refine .enter (.bind ((ih.unary c).of_le (by decide)) fun _ d => .bind ?_ fun _ _ => .pure)
  exact .fresh (.further nofun (fun e => (ih.unary e).fresh) (by decide))

theorem Descending.unary_succ (c : Cursor) :
    Descends w.unarySucc c (Stage.rank .unary + 1) 64 := by
  refine .enter (.accept nofun ?_ (.accept nofun ?_ ?_))
  · exact .bind (ih.unary _).fresh fun _ _ => .pure
  · exact .bind (ih.disjunction _).fresh fun _ _ => .bind .symbol fun _ _ => .pure
  · exact .bind .name fun field d => (ih.test field d).fresh

theorem Descending.test_succ (field : String) (c : Cursor) :
    Descends (w.testSucc field) c (Stage.rank .test + 1) 64 := by
  refine .enter (.accept nofun ?_ (.accept nofun ?_ (.peek ?_)))
  · exact .bind (ih.choices _).fresh fun _ _ => .formed
  · exact .bind (ih.value _).fresh fun _ _ => .bind .keyword fun _ d =>
      .bind (ih.value d).fresh fun _ _ => .pure
  · generalize ht : c.token = t
    cases hc : comparison? t with
    | some o =>
      have hne : t ≠ .eof := by
        rintro rfl
        cases hc
      exact .advance ht hne (.bind (ih.value _).fresh fun _ _ => .pure)
    | none => exact .unexpected

theorem Descending.choices_succ (c : Cursor) :
    Descends w.choicesSucc c (Stage.rank .choices + 1) 64 := by
  have hvalue : ∀ d, Descends w.value d 64 64 := fun d => (ih.value d).fresh
  refine .enter (.accept nofun (.peek (.ite ?_ ?_)) ((ih.value c).of_le (by decide)))
  · exact .bind (ih.select _).fresh fun _ _ => .bind .symbol fun _ _ => .pure
  · exact .bind (.list (hvalue _) hvalue (by decide)) fun _ _ => .bind .symbol fun _ _ => .pure

omit ih

theorem descending (depth : Nat) : Descending (trails depth) := by
  induction depth with
  | zero =>
    constructor <;> intros <;> exact .exhausted
  | succ depth ih =>
    exact ⟨ih.value_succ, ih.braces_succ, ih.select_succ, ih.filter_succ, ih.disjunction_succ,
      ih.conjunction_succ, ih.unary_succ, ih.test_succ, ih.choices_succ⟩

end Nested

section Statements

variable (depth : Nat)

theorem descends_value (c : Cursor) :
    Descends (Trail.value depth) c (Stage.rank .value + 1) 64 :=
  (descending depth).value c

/-- A further key takes a token, with a comma or without one. -/
theorem descends_keysUpTo (limit : Nat) : ∀ c,
    Descends (Trail.keysUpTo depth limit) c (Stage.rank .keysTurn + 1) (Stage.rank .keysTurn) := by
  induction limit with
  | zero => exact fun _ => .exhausted
  | succ limit ih =>
    intro c
    refine .enter (.accept nofun ?_ (.peek (.ite ?_ .pure)))
    · exact .bind (descends_value depth _).fresh fun _ d => .bind (ih d).fresh fun _ _ => .pure
    -- No comma is taken here, but the value takes a token of its own.
    · exact .bind ((descends_value depth c).of_le (by decide)) fun _ d =>
        .bind (ih d).fresh fun _ _ => .pure

theorem descends_keys (c : Cursor) :
    Descends (Trail.keys depth) c (Stage.rank .keys + 1) (Stage.rank .keysTurn) := by
  refine .enter (.bind ((descends_value depth c).of_le (by decide)) fun _ d => ?_)
  exact .bind (.fresh (.loop (descends_keysUpTo depth _ d))) fun _ _ => .pure

theorem descends_assignment (c : Cursor) :
    Descends (Trail.assignment depth) c (Stage.rank .assignment + 1) 64 :=
  .enter (.bind .name fun _ _ => .bind .symbol fun _ d =>
    .bind (descends_value depth d).fresh fun _ _ => .pure)

theorem descends_assignments (c : Cursor) :
    Descends (Trail.assignments depth) c (Stage.rank .assignments + 1)
      (Stage.rank .assignments) := by
  have hitem : ∀ d, Descends (Trail.assignment depth) d 64 64 :=
    fun d => (descends_assignment depth d).fresh
  refine .enter (.accept nofun ?_ .pure)
  refine .bind (.list (hitem _) hitem (by decide)) fun _ _ => .bind .symbol fun _ _ => ?_
  exact .of_le .pure (by decide)

theorem descends_payloadDocument (c : Cursor) :
    Descends (Trail.payloadDocument depth) c (Stage.rank .payloadDocument + 1)
      (Stage.rank .payloadDocument) := by
  have hpure : ∀ {v : Option Operand} {d}, Descends (.plain : Trail (pure v)) d 64
      (Stage.rank .payloadDocument) := .of_le .pure (by decide)
  refine .enter (.peek ?_)
  cases ht : c.token with
  | parameter => exact .bind ((descends_value depth c).of_le (by decide)) fun _ _ => hpure
  | symbol s =>
    cases s
    case leftBrace =>
      exact .advance ht nofun
        (.bind (descends_objectBody (descends_document depth) _).fresh fun _ _ => hpure)
    case leftBracket =>
      exact .bind ((descends_document depth c).of_le (by decide)) fun _ _ => hpure
    all_goals exact .pure
  | _ => exact .pure

theorem descends_payload (c : Cursor) :
    Descends (Trail.payload depth) c (Stage.rank .payload + 1) (Stage.rank .payloadDocument) := by
  refine .enter (.bind ((descends_assignments depth c).of_le (by decide)) fun conditions d => ?_)
  refine .bind ((descends_payloadDocument depth d).of_le (by decide)) fun operand _ => ?_
  exact .of_trail (.ite .plain .plain) (.ite .unexpected .formed)

theorem descends_lifetime (c : Cursor) :
    Descends Trail.lifetime c (Stage.rank .lifetime + 1) 64 := by
  refine .enter (.of_trail (.bind .plain fun _ => .bind .plain fun _ => .plain) ?_)
  refine .bind .count fun amount d => .peek ?_
  cases ht : d.token with
  | name word =>
    dsimp only
    cases TimeUnit.ofWord? word with
    | some unit =>
      dsimp only
      cases Lifetime.ofAmount? amount.toNat unit with
      | some lifetime => exact .taken ht nofun
      | none => exact .fail
    | none => exact .unexpected
  | _ => exact .unexpected

theorem descends_insertInto (c : Cursor) :
    Descends (Trail.insertInto depth) c (Stage.rank .insertInto + 1)
      (Stage.rank .payloadDocument) := by
  refine .enter (.bind .name fun _ c₁ => .bind (descends_payload depth c₁).fresh fun _ c₂ => ?_)
  refine .peek ?_
  cases c₂.token with
  | integer =>
    exact .bind ((descends_lifetime c₂).of_le (by decide)) fun _ _ => .of_le .pure (by decide)
  | _ => exact .pure

theorem descends_insert (c : Cursor) :
    Descends (Trail.insert depth) c (Stage.rank .insert + 1) (Stage.rank .payloadDocument) :=
  .enter (.bind (.pass nofun) fun _ d => (descends_insertInto depth d).of_le (by decide))

theorem descends_update (c : Cursor) :
    Descends (Trail.update depth) c (Stage.rank .update + 1) (Stage.rank .payloadDocument) :=
  .enter (.bind .name fun _ d => .bind (descends_payload depth d).fresh fun _ _ => .pure)

theorem descends_delete (c : Cursor) :
    Descends (Trail.delete depth) c (Stage.rank .delete + 1) (Stage.rank .disjunctionTurn) := by
  refine .enter (.bind ((descends_fields c).of_le (by decide)) fun _ _ => ?_)
  refine .bind .keyword fun _ _ => .bind .name fun _ d => ?_
  exact .bind ((descending depth).filter d).fresh fun _ _ => .pure

theorem descends_put (c : Cursor) :
    Descends (Trail.put depth) c (Stage.rank .put + 1) 64 := by
  refine .enter (.bind .symbol fun _ c₁ => .bind (descends_value depth c₁).fresh fun _ _ => ?_)
  refine .bind .symbol fun _ c₂ => .bind (descends_value depth c₂).fresh fun _ _ => ?_
  refine .accept nofun ?_ (.bind .pure fun _ _ => .bind .symbol fun _ _ => .pure)
  exact .bind (descends_lifetime _).fresh fun _ _ => .bind .pure fun _ _ =>
    .bind .symbol fun _ _ => .pure

theorem descends_body (c : Cursor) :
    Descends (Trail.body depth) c (Stage.rank .body + 1) (Stage.rank .keysTurn) := by
  have hpure : ∀ {s : Statement} {d mid}, Stage.rank .keysTurn ≤ mid →
      Descends (.plain : Trail (pure s)) d mid (Stage.rank .keysTurn) := fun h => .of_le .pure h
  refine .enter (.peek ?_)
  cases ht : c.token with
  | keyword k =>
    cases k
    case select =>
      exact .bind (((descending depth).select c).of_le (by decide)) fun _ _ => hpure (by decide)
    case insert =>
      exact .advance ht nofun (.bind (descends_insert depth _).fresh fun _ _ => hpure (by decide))
    case update =>
      exact .advance ht nofun (.bind (descends_update depth _).fresh fun _ _ => hpure (by decide))
    case delete =>
      exact .advance ht nofun (.bind (descends_delete depth _).fresh fun _ _ => hpure (by decide))
    case get | del => exact .advance ht nofun (.bind (descends_keys depth _).fresh fun _ _ => .pure)
    case put =>
      exact .advance ht nofun (.bind (descends_put depth _).fresh fun _ _ => hpure (by decide))
    all_goals exact .unexpected
  | _ => exact .unexpected

theorem descends_statement (c : Cursor) :
    Descends (Trail.statement depth) c (Stage.rank .statement + 1) (Stage.rank .keysTurn) := by
  refine .enter (.bind ((descends_body depth c).of_le (by decide)) fun s d => ?_)
  refine .of_trail (.bind .plain fun _ => .bind .plain fun _ => .ite .plain .plain) ?_
  exact .bind (.pass nofun) fun _ _ => .peek (.ite .pure .unexpected)

/-- A turn of a script takes a token: a semicolon or those of a statement. -/
theorem descends_scriptUpTo (limit : Nat) : ∀ c,
    Descends (Trail.scriptUpTo depth limit) c (Stage.rank .scriptTurn + 1)
      (Stage.rank .scriptTurn) := by
  induction limit with
  | zero => exact fun _ => .exhausted
  | succ limit ih =>
    intro c
    refine .enter (.accept nofun (ih _).fresh (.peek (.ite .pure ?_)))
    -- A body begins below the turn and ends above it, so it has taken a token.
    refine .bind ((descends_body depth c).of_le (by decide)) fun s d => .peek (.ite ?_ .unexpected)
    exact .bind ((ih d).of_le (by decide)) fun _ _ => .pure

theorem descends_script (c : Cursor) :
    Descends (Trail.script depth) c (Stage.rank .script + 1) (Stage.rank .scriptTurn) :=
  .enter (.of_le (.loop (descends_scriptUpTo depth _ c)) (by decide))

end Statements

section Run

variable {α : Type} {rule : Nat → Rule α}

structure Progresses (rule : Nat → Rule α) (w : ∀ depth, Trail (rule depth)) : Prop where
  /-- No stage begins again without a token. -/
  spaced : ∀ depth c, IsSpaced ((w depth).visits c)
  /-- A trail is as long as its tokens allow. -/
  length_le : ∀ depth c, ((w depth).visits c).length ≤ 64 * (c.left + 1)
  /-- Four rules for each token that is left are enough. -/
  not_exhausted : ∀ depth c, 4 * c.left + 2 ≤ depth → rule depth c ≠ .exhausted

theorem Progresses.of_descends {w : ∀ depth, Trail (rule depth)} {s : Stage} {bottom : Nat}
    (hw : ∀ depth c, Descends (w depth) c (s.rank + 1) bottom)
    (hends : ∀ depth (c : Cursor), 4 * c.left + 2 ≤ depth → Ends (rule depth) c) :
    Progresses rule w where
  spaced depth c := (hw depth c).isSpaced
  length_le depth c := (hw depth c).fresh.length_le
  not_exhausted depth c hc := (hends depth c hc).ne_exhausted

/-- Reading ends. A turn of a loop over characters passes some or is the last one, and a call for a
token passes some as long as there are any. In a statement and in a script a production, and a turn
of a loop, begins again only behind a token. The nesting that is allowed is enough, so every text is
read to a result or to an error. -/
theorem reading_ends :
    (∀ (l : Token.Loop) (cs : List Char), l.Begins cs (l.turn cs)) ∧
    (∀ (size : Nat) (cs : List Char), cs ≠ [] →
      (Lexeme.next size cs).2 <:+ cs ∧
        Text.width (Lexeme.next size cs).2 < Text.width cs) ∧
    Progresses statement Trail.statement ∧ Progresses script Trail.script ∧
    ∀ text, IsRead statement text (parseStatement text) ∧
      IsRead script text (parseScript text) := by
  have hstatement : Progresses statement Trail.statement :=
    .of_descends descends_statement fun _ _ => ends_statement
  have hscript : Progresses script Trail.script :=
    .of_descends descends_script fun _ _ => ends_script
  refine ⟨Token.Loop.begins_turn, fun size _ => Lexeme.next_suffix size, hstatement, hscript, ?_⟩
  intro text
  exact ⟨Rule.isRead_run (fun _ _ => ends_statement) text,
    Rule.isRead_run (fun _ _ => ends_script) text⟩

/-- The trail of two keys, behind which the loop finds no further key, and a text that breaks off
in the middle of a list. -/
theorem reading_ends_keys :
    let c := Cursor.start (Lexeme.scan "get 1, 2")
    let broken := "get (1, /* @p */"
    (Trail.statement 18).visits c =
      [⟨.statement, 4⟩, ⟨.body, 4⟩, ⟨.keys, 3⟩, ⟨.value, 3⟩, ⟨.keysTurn, 2⟩, ⟨.value, 1⟩,
        ⟨.keysTurn, 0⟩] ∧
    IsSpaced ((Trail.statement 18).visits c) ∧ statement 18 c ≠ .exhausted ∧
    Text.width (Lexeme.next 8 "/* @p */".toList).2 < Text.width "/* @p */".toList ∧
    Token.Loop.Begins .trivia ['-', '-', 'x', '\n', 'a'] (.again .trivia ['\n', 'a']) ∧
    IsRead statement broken (parseStatement broken) ∧
    IsRead script broken (parseScript broken) := by
  intro c broken
  obtain ⟨hloops, htokens, hstatement, -, htexts⟩ := reading_ends
  refine ⟨by decide +kernel, hstatement.spaced 18 c, hstatement.not_exhausted 18 c ?_, ?_,
    hloops .trivia _, htexts broken⟩
  · decide +kernel
  · exact (htokens 8 _ (by decide)).2

end Run

end Grammar

end StoreQuery

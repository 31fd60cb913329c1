import StoreQuery.Grammar.Statement
import StoreQuery.Proofs.Grammar.Reading
import StoreQuery.Proofs.Token.Recasing

/-! # Rules do not look at places

A rule asks for tokens and never for their places. At two cursors with the same tokens left it ends
in the same way, and the parameters met are the same; only the place that an error names may be
another. So two texts with the same tokens are read alike.
-/

namespace StoreQuery

open Text

def QueryError.unplaced : QueryError → QueryError
  | grammar e => grammar ⟨e.fault, .point 0⟩
  | e => e

namespace Grammar

variable {α β : Type}

/-- A reading without the place that its error names. -/
def Reading.unplaced (r : Reading α) : Reading α :=
  ⟨r.result.mapError QueryError.unplaced, r.parameters⟩

structure Cursor.Agrees (c d : Cursor) : Prop where
  tokens : c.tokens = d.tokens
  mentioned : c.mentioned = d.mentioned

inductive Reply.Agrees : Reply α → Reply α → Prop where
  | done {a : α} {c d : Cursor} (h : c.Agrees d) : Agrees (.done a c) (.done a d)
  | failed {e e' : QueryError} {c d : Cursor} (he : e.unplaced = e'.unplaced) (h : c.Agrees d) :
      Agrees (.failed e c) (.failed e' d)
  | exhausted : Agrees .exhausted .exhausted

namespace Cursor.Agrees

variable {c d : Cursor}

theorem token (h : c.Agrees d) : c.token = d.token := by
  rw [token_eq, token_eq, h.tokens]

theorem next (h : c.Agrees d) : c.next.Agrees d.next := by
  constructor
  · rw [tokens_next, tokens_next, h.tokens]
  · have hmentioned : ∀ c : Cursor, c.next.mentioned = c.mentioned := by
      rintro ⟨_ | _, _, _⟩ <;> rfl
    rw [hmentioned, hmentioned, h.mentioned]

theorem length (h : c.Agrees d) : c.rest.length = d.rest.length := by
  simpa [Cursor.tokens] using congrArg List.length h.tokens

end Cursor.Agrees

/-- Whether a rule does not look at places. -/
def Blind (r : Rule α) : Prop :=
  ∀ c d : Cursor, c.Agrees d → (r c).Agrees (r d)

variable {r : Rule α} {f : α → Rule β}

namespace Blind

theorem pure {a : α} : Blind (Pure.pure a) :=
  fun _ _ h => .done h

theorem bind (hr : Blind r) (hf : ∀ a, Blind (f a)) : Blind (r >>= f) := by
  intro c d h
  rw [Rule.bind_apply, Rule.bind_apply]
  have hreply := hr c d h
  generalize r c = reply, r d = reply' at hreply
  cases hreply with
  | done h' => exact hf _ _ _ h'
  | failed he h' => exact .failed he h'
  | exhausted => exact .exhausted

theorem exhausted : Blind (Rule.exhausted : Rule α) :=
  fun _ _ _ => .exhausted

theorem fail {fault : GrammarFault} : Blind (Rule.fail fault : Rule α) :=
  fun _ _ h => .failed rfl h

theorem unexpected {wanted : Expectation} : Blind (Rule.unexpected wanted : Rule α) := by
  intro c d h
  rw [Rule.unexpected, Rule.unexpected, h.token]
  exact fail c d h

theorem formed {x : Except QueryError α} : Blind (Rule.formed x) := by
  cases x with
  | ok => exact pure
  | error => exact fun _ _ h => .failed rfl h

theorem peek : Blind Rule.peek := by
  intro c d h
  rw [Rule.peek, Rule.peek, h.token]
  exact .done h

theorem advance : Blind Rule.advance :=
  fun _ _ h => .done h.next

theorem mention {p : String} : Blind (Rule.mention p) :=
  fun _ _ h => .done ⟨h.tokens, congrArg (· ++ [p]) h.mentioned⟩

theorem accept {t : Token} : Blind (Rule.accept t) := by
  intro c d h
  rw [Rule.accept, Rule.accept, h.token]
  split
  · exact .done h.next
  · exact .done h

theorem passing {r : Rule α} (h : Blind r) : Blind (Rule.advance >>= fun _ => r) :=
  bind advance fun _ => h

theorem choice {t : Token} {r r' : Rule α} (h : Blind r) (h' : Blind r') :
    Blind (Rule.accept t >>= fun b => if b then r else r') := by
  apply bind accept
  rintro (_ | _)
  · exact h'
  · exact h

theorem symbol {s : Symbol} : Blind (Rule.symbol s) :=
  choice pure unexpected

theorem keyword {k : Keyword} : Blind (Rule.keyword k) :=
  choice pure unexpected

theorem name : Blind Rule.name := by
  apply bind peek
  intro t
  split
  · exact passing pure
  · exact unexpected

theorem text : Blind Rule.text := by
  apply bind peek
  intro t
  split
  · exact passing pure
  · exact unexpected

theorem count : Blind Rule.count := by
  apply bind peek
  intro t
  split
  · split
    · exact fail
    · exact passing pure
  · exact unexpected

theorem rounds {r : Nat → Rule α} (h : ∀ limit, Blind (r limit)) :
    Blind fun c => r (c.rest.length + 1) c := by
  intro c d hcd
  have hlength : d.rest.length = c.rest.length := hcd.length.symm
  dsimp only
  rw [hlength]
  exact h _ c d hcd

variable {item : Rule α} {separator : Token}

theorem furtherUpTo (h : Blind item) (limit : Nat) :
    Blind (Rule.furtherUpTo separator item limit) := by
  induction limit with
  | zero => exact exhausted
  | succ limit ih => exact choice (bind h fun _ => bind ih fun _ => pure) pure

theorem further (h : Blind item) : Blind (Rule.further separator item) :=
  rounds (furtherUpTo h)

theorem list (h : Blind item) : Blind (Rule.list item) :=
  bind h fun _ => bind (further h) fun _ => pure

end Blind

section Document

theorem blind_negative : Blind negative := by
  apply Blind.bind .peek
  intro t
  split
  · split
    · exact .fail
    · exact .passing .pure
  · exact .passing .pure
  · exact .unexpected

variable {value : Rule Json} (hv : Blind value)

include hv

theorem blind_member : Blind (member value) :=
  .bind .text fun _ => .bind .symbol fun _ => .bind hv fun _ => .pure

theorem blind_objectFrom (key : String) : Blind (objectFrom key value) :=
  .bind .symbol fun _ => .bind hv fun _ => .bind (.further (blind_member hv)) fun _ =>
    .bind .symbol fun _ => .pure

theorem blind_objectBody : Blind (objectBody value) :=
  .choice .pure (.bind .text fun key => blind_objectFrom hv key)

theorem blind_arrayBody : Blind (arrayBody value) :=
  .choice .pure (.bind (.list hv) fun _ => .bind .symbol fun _ => .pure)

omit hv

theorem blind_document (depth : Nat) : Blind (document depth) := by
  induction depth with
  | zero => exact .exhausted
  | succ depth ih =>
    refine .bind .peek fun t => ?_
    cases t with
    | text | integer | float => exact .passing .pure
    | keyword k =>
      cases k
      case true | false | null => exact .passing .pure
      all_goals exact .unexpected
    | symbol s =>
      cases s
      case minus => exact .passing (.bind blind_negative fun _ => .pure)
      case leftBrace => exact .passing (blind_objectBody ih)
      case leftBracket => exact .passing (blind_arrayBody ih)
      all_goals exact .unexpected
    | _ => exact .unexpected

end Document

section Clauses

theorem blind_fields : Blind fields := by
  refine .choice .pure (.bind .peek fun t => ?_)
  split
  · exact .pure
  · exact .list .name

theorem blind_sortKey : Blind sortKey :=
  .bind .name fun _ => .choice .pure (.bind .accept fun _ => .pure)

theorem blind_ordering : Blind ordering :=
  .choice (.bind .keyword fun _ => .list blind_sortKey) .pure

theorem blind_clauseCount (k : Keyword) : Blind (clauseCount k) :=
  .choice (.bind .count fun _ => .pure) .pure

theorem blind_paging : Blind paging := by
  apply Blind.bind (blind_clauseCount .skip)
  rintro (_ | skip)
  · apply Blind.bind (blind_clauseCount .limit)
    rintro (_ | limit)
    · exact .pure
    · exact .bind (blind_clauseCount .skip) fun _ => .pure
  · exact .bind (blind_clauseCount .limit) fun _ => .pure

end Clauses

section Nested

structure AllBlind (depth : Nat) : Prop where
  value : Blind (value depth)
  braces : Blind (braces depth)
  select : Blind (select depth)
  filter : Blind (filter depth)
  disjunction : Blind (disjunction depth)
  conjunction : Blind (conjunction depth)
  unary : Blind (unary depth)
  test : ∀ field, Blind (test depth field)
  choices : Blind (choices depth)

namespace AllBlind

variable {depth : Nat} (ih : AllBlind depth)

include ih

theorem value_succ : Blind (Grammar.value (depth + 1)) := by
  refine .bind .peek fun t => ?_
  cases t with
  | text | integer | float => exact .passing .pure
  | parameter => exact .bind .mention fun _ => .passing .pure
  | keyword k =>
    cases k
    case true | false | null => exact .passing .pure
    all_goals exact .unexpected
  | symbol s =>
    cases s
    case minus => exact .passing (.bind blind_negative fun _ => .pure)
    case leftBrace => exact .passing ih.braces
    case leftBracket => exact .bind (blind_document _) fun _ => .pure
    case leftParen => exact .passing (.bind ih.select fun _ => .bind .symbol fun _ => .pure)
    all_goals exact .unexpected
  | _ => exact .unexpected

theorem braces_succ : Blind (Grammar.braces (depth + 1)) := by
  apply Blind.bind .peek
  intro t
  split
  · refine .passing (.bind .peek fun t => ?_)
    split
    · exact .bind (blind_objectFrom (blind_document depth) _) fun _ => .pure
    · exact .bind (.further ih.value) fun _ => .bind .symbol fun _ => .pure
  · exact .passing .pure
  · exact .bind (.list ih.value) fun _ => .bind .symbol fun _ => .pure

theorem select_succ : Blind (Grammar.select (depth + 1)) := by
  refine .bind .keyword fun _ => .bind blind_fields fun _ => .bind .keyword fun _ => ?_
  refine .bind .name fun _ => .bind ih.filter fun _ => .bind blind_ordering fun _ => ?_
  exact .bind blind_paging fun _ => .pure

theorem filter_succ : Blind (Grammar.filter (depth + 1)) :=
  .choice (.bind ih.disjunction fun _ => .pure) .pure

theorem disjunction_succ : Blind (Grammar.disjunction (depth + 1)) :=
  .bind ih.conjunction fun _ => .bind (.further ih.conjunction) fun _ => .pure

theorem conjunction_succ : Blind (Grammar.conjunction (depth + 1)) :=
  .bind ih.unary fun _ => .bind (.further ih.unary) fun _ => .pure

theorem unary_succ : Blind (Grammar.unary (depth + 1)) := by
  refine .choice (.bind ih.unary fun _ => .pure) (.choice ?_ ?_)
  · exact .bind ih.disjunction fun _ => .bind .symbol fun _ => .pure
  · exact .bind .name fun field => ih.test field

theorem test_succ (field : String) : Blind (Grammar.test (depth + 1) field) := by
  refine .choice (.bind ih.choices fun _ => .formed) (.choice ?_ (.bind .peek fun t => ?_))
  · exact .bind ih.value fun _ => .bind .keyword fun _ => .bind ih.value fun _ => .pure
  · split
    · exact .passing (.bind ih.value fun _ => .pure)
    · exact .unexpected

theorem choices_succ : Blind (Grammar.choices (depth + 1)) := by
  refine .choice (.bind .peek fun t => ?_) ih.value
  split
  · exact .bind ih.select fun _ => .bind .symbol fun _ => .pure
  · exact .bind (.list ih.value) fun _ => .bind .symbol fun _ => .pure

end AllBlind

theorem allBlind (depth : Nat) : AllBlind depth := by
  induction depth with
  | zero =>
    exact ⟨.exhausted, .exhausted, .exhausted, .exhausted, .exhausted, .exhausted, .exhausted,
      fun _ => .exhausted, .exhausted⟩
  | succ depth ih =>
    exact ⟨ih.value_succ, ih.braces_succ, ih.select_succ, ih.filter_succ, ih.disjunction_succ,
      ih.conjunction_succ, ih.unary_succ, ih.test_succ, ih.choices_succ⟩

end Nested

section Statement

variable (depth : Nat)

theorem blind_keysUpTo (limit : Nat) : Blind (keysUpTo depth limit) := by
  induction limit with
  | zero => exact .exhausted
  | succ limit ih =>
    have hkey := Blind.bind (allBlind depth).value fun x =>
      Blind.bind ih fun xs => Blind.pure (a := x :: xs)
    refine .choice hkey (.bind .peek fun t => ?_)
    split
    · exact hkey
    · exact .pure

theorem blind_keys : Blind (keys depth) :=
  .bind (allBlind depth).value fun _ => .bind (.rounds (blind_keysUpTo depth)) fun _ => .pure

theorem blind_assignment : Blind (assignment depth) :=
  .bind .name fun _ => .bind .symbol fun _ => .bind (allBlind depth).value fun _ => .pure

theorem blind_assignments : Blind (assignments depth) :=
  .choice (.bind (.list (blind_assignment depth)) fun _ => .bind .symbol fun _ => .pure) .pure

theorem blind_payloadDocument : Blind (payloadDocument depth) := by
  apply Blind.bind .peek
  intro t
  split
  · exact .passing (.bind (blind_objectBody (blind_document depth)) fun _ => .pure)
  · exact .bind (blind_document depth) fun _ => .pure
  · exact .bind (allBlind depth).value fun _ => .pure
  · exact .pure

theorem blind_payload : Blind (payload depth) := by
  apply Blind.bind (blind_assignments depth)
  intro conditions
  apply Blind.bind (blind_payloadDocument depth)
  intro operand
  split
  · exact .unexpected
  · exact .formed

theorem blind_lifetime : Blind lifetime := by
  apply Blind.bind .count
  intro amount
  apply Blind.bind .peek
  intro t
  split
  · split
    · split
      · exact .passing .pure
      · exact .fail
    · exact .unexpected
  · exact .unexpected

theorem blind_insertInto : Blind (insertInto depth) := by
  refine .bind .name fun _ => .bind (blind_payload depth) fun _ => .bind .peek fun t => ?_
  split
  · exact .bind blind_lifetime fun _ => .pure
  · exact .pure

theorem blind_insert : Blind (insert depth) :=
  .bind .accept fun _ => blind_insertInto depth

theorem blind_update : Blind (update depth) :=
  .bind .name fun _ => .bind (blind_payload depth) fun _ => .pure

theorem blind_delete : Blind (delete depth) :=
  .bind blind_fields fun _ => .bind .keyword fun _ => .bind .name fun _ =>
    .bind (allBlind depth).filter fun _ => .pure

theorem blind_put : Blind (put depth) := by
  refine .bind .symbol fun _ => .bind (allBlind depth).value fun _ => ?_
  refine .bind .symbol fun _ => .bind (allBlind depth).value fun _ => ?_
  refine .choice ?_ (.bind .pure fun _ => .bind .symbol fun _ => .pure)
  exact .bind blind_lifetime fun _ => .bind .pure fun _ => .bind .symbol fun _ => .pure

theorem blind_body : Blind (body depth) := by
  apply Blind.bind .peek
  intro t
  split
  · exact .bind (allBlind depth).select fun _ => .pure
  · exact .passing (.bind (blind_insert depth) fun _ => .pure)
  · exact .passing (.bind (blind_update depth) fun _ => .pure)
  · exact .passing (.bind (blind_delete depth) fun _ => .pure)
  · exact .passing (.bind (blind_keys depth) fun _ => .pure)
  · exact .passing (.bind (blind_put depth) fun _ => .pure)
  · exact .passing (.bind (blind_keys depth) fun _ => .pure)
  · exact .unexpected

theorem blind_statement : Blind (statement depth) := by
  refine .bind (blind_body depth) fun _ => .bind .accept fun _ => .bind .peek fun t => ?_
  split
  · exact .pure
  · exact .unexpected

theorem blind_scriptUpTo (limit : Nat) : Blind (scriptUpTo depth limit) := by
  induction limit with
  | zero => exact .exhausted
  | succ limit ih =>
    refine .choice ih (.bind .peek fun t => ?_)
    split
    · exact .pure
    · refine .bind (blind_body depth) fun _ => .bind .peek fun t => ?_
      split
      · exact .bind ih fun _ => .pure
      · exact .unexpected

theorem blind_script : Blind (script depth) :=
  .rounds (blind_scriptUpTo depth)

end Statement

/-- A rule that does not look at places reads two texts with the same tokens alike. -/
theorem Blind.run {rule : Nat → Rule α} (h : ∀ depth, Blind (rule depth)) {text text' : String}
    (htokens : (Lexeme.scan text).map Lexeme.token = (Lexeme.scan text').map Lexeme.token) :
    (Rule.run rule text).unplaced = (Rule.run rule text').unplaced := by
  have hlength : (Lexeme.scan text).length = (Lexeme.scan text').length := by
    simpa using congrArg List.length htokens
  have hstart : (Cursor.start (Lexeme.scan text)).Agrees (.start (Lexeme.scan text')) :=
    ⟨htokens, rfl⟩
  have hreply := h (nesting (Lexeme.scan text)) _ _ hstart
  have hnesting : nesting (Lexeme.scan text') = nesting (Lexeme.scan text) := by
    rw [nesting, nesting, hlength]
  unfold Rule.run
  dsimp only
  rw [hnesting]
  generalize rule (nesting (Lexeme.scan text)) (.start (Lexeme.scan text)) = reply,
    rule (nesting (Lexeme.scan text)) (.start (Lexeme.scan text')) = reply' at *
  cases hreply with
  | done h => simp only [Reading.unplaced, h.mentioned]
  | failed he h => simp only [Reading.unplaced, Except.mapError, he, h.mentioned]
  | exhausted => rfl

end Grammar

open Grammar Lexeme

/-- Layout does not change what a text means. Where a token begins, a blank and any blanks and
comments behind it may be inserted: all tokens stay as they are, and those from there on are that
many bytes later. Letters within keywords may change their case, as long as no literal that breaks
off after the first half of a surrogate pair comes to stand before an escape; all lexemes stay as
they are. And texts with the same tokens are the same statements with the same parameters, or break
the same rule in the same way. -/
theorem layout_and_case (b : Char) (inserted before after : List Char) (l : Lexeme)
    (text text' : String) :
    (isBlank b = true → IsLayout inserted → l ∈ scan (String.ofList (before ++ after)) →
      l.span.start = width before →
      scan (String.ofList (before ++ (b :: inserted ++ after))) =
          (scan (String.ofList (before ++ after))).map
            (shiftFrom (width before) (width (b :: inserted))) ∧
        ending (String.ofList (before ++ (b :: inserted ++ after))) =
          (ending (String.ofList (before ++ after))).shift (width (b :: inserted))) ∧
    (Recased (InKeyword (scan text)) 0 text.toList text'.toList → KeepsHalves text text' →
      scan text' = scan text ∧ ending text' = ending text) ∧
    ((scan text).map Lexeme.token = (scan text').map Lexeme.token →
      (parseStatement text).unplaced = (parseStatement text').unplaced ∧
        (parseScript text).unplaced = (parseScript text').unplaced) := by
  constructor
  · intro hb hins hl hstart
    exact ⟨scan_insert hb hins hl hstart, ending_insert before after⟩
  constructor
  · intro hrec hhalves
    exact ⟨scan_recased hrec hhalves, ending_recased hrec⟩
  · intro htokens
    exact ⟨Blind.run blind_statement htokens, Blind.run blind_script htokens⟩

/-- A comment in front of `from`, and two keywords in another case. -/
theorem layout_and_case_select :
    scan "select *  -- all\nfrom t" = (scan "select * from t").map (shiftFrom 9 8) ∧
    scan "SELECT * From t" = scan "select * from t" ∧
    (parseStatement "SELECT * From t").unplaced =
      (parseStatement "select * from t").unplaced := by
  have hlayout : IsLayout "-- all\n".toList := @IsLayout.line " all".toList [] (by decide) .nil
  obtain ⟨hinsert, hcase, hparse⟩ := layout_and_case ' ' "-- all\n".toList "select * ".toList
    "from t".toList ⟨.keyword .fromWord, 9, 13⟩ "select * from t" "SELECT * From t"
  have hkeeps : KeepsHalves "select * from t" "SELECT * From t" := by
    have hnone : ∀ l ∈ scan "select * from t",
        Span.text ⟨l.span.stop, l.span.stop + 2⟩ "SELECT * From t".toList ≠ ['\\', 'u'] := by
      decide +kernel
    exact fun l hl _ => hnone l hl
  have hscan := (hcase (by decide +kernel) hkeeps).1
  exact ⟨(hinsert (by decide) hlayout (by decide +kernel) (by decide)).1, hscan,
    (hparse (by rw [hscan])).1.symm⟩

/-- Behind half a surrogate pair, the first letter of a keyword belongs to the literal in one case
and not in the other. -/
theorem not_scan_recased :
    ¬∀ text text' : String, Recased (InKeyword (scan text)) 0 text.toList text'.toList →
      (scan text').map Lexeme.token = (scan text).map Lexeme.token := by
  intro h
  have htokens := h "\"\\uD800\\UPDATE" "\"\\uD800\\update" (by decide +kernel)
  exact absurd htokens (by decide +kernel)

end StoreQuery

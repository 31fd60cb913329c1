import StoreQuery.Proofs.Query.ChainReading
import StoreQuery.Proofs.Query.Parentheses
import StoreQuery.Proofs.Token.Ending
import StoreQuery.Proofs.Token.Layout

/-! # Lists of keys

The keys of a statement need no commas between them: the text of a key ends by itself, and what can
begin another one begins it. A comma may stand between two keys, but not without a key behind it.
-/

namespace StoreQuery

open Text Grammar Rule

section Layout

variable {gap rest : List Char}

theorem Closes.layout (h : IsLayout gap) : Closes gap [] := by
  intro rest
  rw [Lexeme.tokens, Lexeme.scanFrom_congr (Trivia.drop_append h rest)]
  rfl

theorem Token.stops_of_isBlank {c : Char} (h : isBlank c = true) (cs : List Char) :
    Token.stops (c :: cs) = true := by
  have hpoint := (IsTest.mark (m := '.') (by decide)).blank c h
  have hquote := (IsTest.mark (m := '\x60') (by decide)).blank c h
  simp only [beq_eq_false_iff_ne] at hpoint hquote
  simp [Token.stops, IsTest.isPart.blank c h, hpoint, hquote]

theorem IsLayout.stops (h : IsLayout gap) (hrest : Token.stops rest = true) :
    Token.stops (gap ++ rest) = true := by
  cases h with
  | nil => exact hrest
  | blank hc => exact Token.stops_of_isBlank hc _
  | line | block => rfl

end Layout

/-- The canonical texts of keys with a separator between any two of them: layout, or a comma with
layout on its sides. -/
inductive IsKeyText : List Char → List Operand → Prop where
  | last {v : Operand} : IsKeyText v.render.toList [v]
  | blank {v : Operand} {vs : List Operand} {gap cs : List Char} (hgap : IsLayout gap)
      (hne : gap ≠ []) (h : IsKeyText cs vs) : IsKeyText (v.render.toList ++ (gap ++ cs)) (v :: vs)
  | comma {v : Operand} {vs : List Operand} {before after cs : List Char}
      (hbefore : IsLayout before) (hafter : IsLayout after) (h : IsKeyText cs vs) :
      IsKeyText (v.render.toList ++ (before ++ ',' :: (after ++ cs))) (v :: vs)

/-- What shows that a comma is one too many: the end of the text or of the statement, or another
comma. -/
inductive LacksKey : List Char → Prop where
  | ending : LacksKey []
  | semicolon {cs : List Char} : LacksKey (';' :: cs)
  | comma {cs : List Char} : LacksKey (',' :: cs)

inductive TakesKeys : Keyword → (List Operand → Statement) → Prop where
  | get : TakesKeys .get .get
  | del : TakesKeys .del .del

namespace Grammar

variable {ts us rest : List Token} {v : Operand} {vs ks : List Operand}

/-- Values in a row, some of them with commas between them. -/
inductive IsKeys : List Token → List Operand → Prop where
  | last {ts : List Token} {v : Operand} (h : Produces .value ts v) : IsKeys ts [v]
  | blank {ts us : List Token} {v : Operand} {vs : List Operand} (h : Produces .value ts v)
      (hs : IsKeys us vs) : IsKeys (ts ++ us) (v :: vs)
  | comma {ts us : List Token} {v : Operand} {vs : List Operand} (h : Produces .value ts v)
      (hs : IsKeys us vs) : IsKeys (ts ++ .symbol .comma :: us) (v :: vs)

theorem IsKeys.produces (h : IsKeys ts ks) : Produces .keys ts ks := by
  induction h with
  | last h => exact .lastKey h
  | blank h _ ih => exact .key h ih
  | comma h _ ih => exact .commaKey h ih

/-- The tokens that a value is looked for at are those that a value begins with. -/
theorem startsValue_iff (t : Token) :
    startsValue t = true ↔ ∃ ts v, Produces .value (t :: ts) v := by
  have hselect : Produces .select [.keyword .select, .symbol .star, .keyword .fromWord, .name "T"]
      ⟨"T", [], none, [], 0, 0⟩ := .select .star .noFilter .noOrdering .noPaging
  constructor
  · intro h
    cases t with
    | text => exact ⟨_, _, .valueText⟩
    | integer => exact ⟨_, _, .valueNumber .integer⟩
    | float => exact ⟨_, _, .valueNumber .float⟩
    | parameter => exact ⟨_, _, .valueParameter⟩
    | symbol s =>
      cases s with
      | minus => exact ⟨_, _, .valueNumber (.minusInteger (n := 0) (by decide))⟩
      | leftBrace => exact ⟨_, _, .valueObject .emptyObject⟩
      | leftBracket => exact ⟨_, _, .valueArray .emptyArray⟩
      | leftParen => exact ⟨_, _, .valueSelect hselect⟩
      | _ => cases h
    | keyword k =>
      cases k with
      | true => exact ⟨_, _, .valueTrue⟩
      | false => exact ⟨_, _, .valueFalse⟩
      | null => exact ⟨_, _, .valueNull⟩
      | _ => cases h
    | _ => cases h
  · rintro ⟨ts, v, h⟩
    exact (front_value h).1

theorem fails_value (h : startsValue (front rest) = false) {depth : Nat} (hdepth : 0 < depth) :
    Fails (value depth) rest := by
  obtain ⟨depth, rfl⟩ := Nat.exists_eq_succ_of_ne_zero (Nat.ne_of_gt hdepth)
  refine .peek rfl ?_
  generalize front rest = t at h
  cases t with
  | text | integer | float | parameter => cases h
  | symbol s =>
    cases s with
    | minus | leftBrace | leftBracket | leftParen => cases h
    | _ => exact .unexpected
  | keyword k =>
    cases k with
    | true | false | null => cases h
    | _ => exact .unexpected
  | _ => exact .unexpected

/-- After keys, a comma that no key follows is refused. -/
theorem IsKeys.exists_fails (h : IsKeys ts ks) (hrest : startsValue (front rest) = false)
    {depth : Nat} (hdepth : 2 * ts.length + 1 ≤ depth) :
    ∃ us vs v, ts = us ++ vs ∧ Produces .value us v ∧ ∀ limit, vs.length < limit →
      Fails (keysUpTo depth limit) (vs ++ .symbol .comma :: rest) := by
  induction h with
  | @last ts v h =>
    refine ⟨ts, [], v, (List.append_nil ts).symm, h, fun limit hlimit => ?_⟩
    obtain ⟨limit, rfl⟩ := Nat.exists_eq_succ_of_ne_zero (Nat.ne_of_gt hlimit)
    exact .accept (.bind (fails_value hrest (by omega)))
  | @blank ts us v vs h hs ih =>
    rw [List.length_append] at hdepth
    obtain ⟨us, ws, w, rfl, hw, hfails⟩ := ih (by omega)
    refine ⟨ts, us ++ ws, v, rfl, h, fun limit hlimit => ?_⟩
    have hpos := length_pos_of_startsValue (front_value hw).1
    rw [List.length_append] at hdepth hlimit
    obtain ⟨limit, rfl⟩ := Nat.exists_eq_succ_of_ne_zero (show limit ≠ 0 by omega)
    -- No comma is there to be taken, but a token with which a value begins.
    have hstart : startsValue (front (us ++ ws ++ .symbol .comma :: rest)) = true :=
      front_keys hs.produces
    refine .skip (fun hcomma => ?_) (.peek rfl ?_)
    · rw [hcomma] at hstart
      cases hstart
    · rw [if_pos hstart, List.append_assoc]
      exact .after ((complete hw).1 depth _ (by omega)) (.bind (hfails limit (by omega)))
  | @comma ts us v vs h hs ih =>
    rw [List.length_append, List.length_cons] at hdepth
    obtain ⟨us, ws, w, rfl, hw, hfails⟩ := ih (by omega)
    refine ⟨ts, .symbol .comma :: (us ++ ws), v, rfl, h, fun limit hlimit => ?_⟩
    rw [List.length_append] at hdepth
    rw [List.length_cons, List.length_append] at hlimit
    obtain ⟨limit, rfl⟩ := Nat.exists_eq_succ_of_ne_zero (show limit ≠ 0 by omega)
    rw [List.cons_append, List.append_assoc]
    exact .accept (.after ((complete hw).1 depth _ (by omega)) (.bind (hfails limit (by omega))))

theorem IsKeys.fails (h : IsKeys ts ks) (hrest : startsValue (front rest) = false)
    {depth : Nat} (hdepth : 2 * ts.length + 1 ≤ depth) :
    Fails (keys depth) (ts ++ .symbol .comma :: rest) := by
  obtain ⟨us, vs, v, rfl, hv, hfails⟩ := h.exists_fails hrest hdepth
  rw [List.length_append] at hdepth
  rw [List.append_assoc]
  refine .after ((complete hv).1 depth _ (by omega)) (.bind fun c hc => ?_)
  refine hfails _ ?_ c hc
  have hlen := congrArg List.length hc
  rw [Cursor.tokens, List.length_map, List.length_append] at hlen
  omega

end Grammar

variable {lead rest cs : List Char} {ts us : List Token} {k : Keyword}
  {make : List Operand → Statement} {ks : List Operand}

theorem IsKeyText.exists_isKeys (h : IsKeyText cs ks) (hks : ∀ k ∈ ks, k.IsParsed) :
    ∃ ts, Writes cs ts ∧ IsKeys ts ks := by
  induction h with
  | @last v =>
    obtain ⟨ts, hts, hv⟩ := v.spells (Operand.isParsed_iff.1 (hks v List.mem_cons_self))
    exact ⟨ts, hts, .last hv⟩
  | @blank v vs gap cs hgap hne h ih =>
    rw [List.forall_mem_cons] at hks
    obtain ⟨ts, hts, hv⟩ := v.spells (Operand.isParsed_iff.1 hks.1)
    obtain ⟨us, hus, hvs⟩ := ih hks.2
    have hstops : Token.stops (gap ++ cs) = true := by
      cases hgap with
      | nil => exact absurd rfl hne
      | blank hc => exact Token.stops_of_isBlank hc _
      | line | block => rfl
    exact ⟨_, hts.append ((Closes.layout hgap).append_writes hus) hstops, .blank hv hvs⟩
  | @comma v vs before after cs hbefore hafter h ih =>
    rw [List.forall_mem_cons] at hks
    obtain ⟨ts, hts, hv⟩ := v.spells (Operand.isParsed_iff.1 hks.1)
    obtain ⟨us, hus, hvs⟩ := ih hks.2
    have hcomma : Writes (before ++ ',' :: (after ++ cs)) (.symbol .comma :: us) :=
      (Closes.layout hbefore).append_writes
        ((Closes.mark (s := .comma) rfl).append_writes ((Closes.layout hafter).append_writes hus))
    exact ⟨_, hts.append hcomma (hbefore.stops rfl), .comma hv hvs⟩

theorem TakesKeys.produces (hk : TakesKeys k make) (h : IsKeys ts ks) :
    Produces .statement (.keyword k :: ts) (make ks) := by
  cases hk with
  | get => exact .statement (.get h.produces)
  | del => exact .statement (.del h.produces)

theorem TakesKeys.fails (hk : TakesKeys k make) (h : IsKeys ts ks)
    (hus : startsValue (front us) = false) {depth : Nat} (hdepth : 2 * ts.length + 1 ≤ depth) :
    Fails (statement depth) (.keyword k :: (ts ++ .symbol .comma :: us)) := by
  have hkeys := h.fails hus hdepth
  cases hk with
  | get => exact .bind (.peek rfl (.advance (.bind hkeys)))
  | del => exact .bind (.peek rfl (.advance (.bind hkeys)))

theorem LacksKey.startsValue_eq_false (h : LacksKey rest) :
    startsValue (front (Lexeme.tokens rest)) = false := by
  cases h with
  | ending =>
    rw [Writes.nil.tokens_eq]
    rfl
  | semicolon =>
    rw [Lexeme.tokens_mark (s := .semicolon) rfl]
    rfl
  | comma =>
    rw [Lexeme.tokens_mark (s := .comma) rfl]
    rfl

theorem Closes.keywordLayout (k : Keyword) (hlead : IsLayout lead) (hne : lead ≠ []) :
    Closes (k.word.toList ++ lead) [.keyword k] := by
  have hstops : Token.stops lead = true := by
    rw [← List.append_nil lead]
    exact hlead.stops rfl
  exact (Writes.keyword k).append_closes (.layout hlead) hstops hne

/-- A statement that takes keys is read from the canonical texts of the keys with commas or only
layout between them, as the statement of exactly these keys. A comma behind them that no key follows
is an error of syntax. -/
theorem parse_keys (hk : TakesKeys k make) (hlead : IsLayout lead) (hne : lead ≠ [])
    (h : IsKeyText cs ks) (hks : ∀ v ∈ ks, v.IsParsed) :
    (parseStatement (k.word ++ String.ofList (lead ++ cs))).result = .ok (make ks) ∧
      ∀ gap gap' rest, IsLayout gap → IsLayout gap' → LacksKey rest →
        ∃ e, (parseStatement (k.word ++
          String.ofList (lead ++ (cs ++ (gap ++ ',' :: (gap' ++ rest)))))).result =
            .error (.grammar e) := by
  obtain ⟨ts, hts, hkeys⟩ := h.exists_isKeys hks
  have hword := Closes.keywordLayout k hlead hne
  constructor
  · apply parseStatement_of_produces
    rw [String.toList_append, String.toList_ofList, ← List.append_assoc,
      (hword.append_writes hts).tokens_eq]
    exact hk.produces hkeys
  · intro gap gap' rest hgap hgap' hrest
    have htokens : Lexeme.tokens (k.word.toList ++ (lead ++ (cs ++ (gap ++ ',' :: (gap' ++ rest)))))
        = .keyword k :: (ts ++ .symbol .comma :: Lexeme.tokens rest) := by
      rw [← List.append_assoc, hword, hts _ (hgap.stops rfl), Closes.layout hgap,
        Lexeme.tokens_mark (s := .comma) rfl, Closes.layout hgap']
      rfl
    apply parseStatement_of_fails
    rw [String.toList_append, String.toList_ofList, htokens]
    intro depth hdepth
    rw [List.length_cons, List.length_append] at hdepth
    exact hk.fails hkeys hrest.startsValue_eq_false (by omega)

theorem parse_keys_negative :
    (parseStatement "get -1 -2,@p \x7b\x7d").result = .ok (.get [.literal (.int (-1)),
      .literal (.int (-2)), .parameter "p", .document (.object [])]) ∧
    ∃ e, (parseStatement "get -1 -2,@p \x7b\x7d,,1").result = .error (.grammar e) := by
  have hblank : IsLayout [' '] := .blank rfl .nil
  have htext : IsKeyText "-1 -2,@p \x7b\x7d".toList [.literal (.int (-1)), .literal (.int (-2)),
      .parameter "p", .document (.object [])] := by
    convert IsKeyText.blank hblank nofun (.comma .nil .nil (.blank hblank nofun .last)) using 1
    decide +kernel
  have hparsed : ∀ v ∈ ([.literal (.int (-1)), .literal (.int (-2)), .parameter "p",
      .document (.object [])] : List Operand), v.IsParsed := by
    simp only [List.forall_mem_cons, Operand.isParsed_iff]
    exact ⟨trivial, trivial, show Name.isDotted true _ = true by decide,
      ⟨trivial, List.Pairwise.nil, trivial⟩, nofun⟩
  obtain ⟨hparse, hrefuse⟩ := parse_keys .get hblank nofun htext hparsed
  exact ⟨hparse, hrefuse [] [] [',', '1'] .nil .nil .comma⟩

end StoreQuery

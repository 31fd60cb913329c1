import StoreQuery.Proofs.Grammar.Completeness.Values

/-! # Clauses and statements are read

How the clauses of statements, and statements themselves, are read when their parts are.
-/

namespace StoreQuery.Grammar

open Rule

section Clauses

variable {ts us : List Token}

theorem reads_noFields : Complete .fields [] [] := by
  intro rest hrest
  refine .skip ?_ (.peek (t := .keyword .fromWord) hrest .pure)
  rw [List.nil_append, hrest]
  nofun

theorem reads_fields {field : String} {fs : List String} (h : Complete (.more .name) ts fs) :
    Complete .fields (.name field :: ts) (field :: fs) := by
  intro rest hrest
  have hname : Complete .name [.name field] field := fun _ => .name
  refine .skip nofun (.peek (t := .name field) rfl ?_)
  refine Further.reads_list (F := fun _ => True) h hname (fun vs a _ ha rest _ => ha rest) trivial
    trivial ?_
  rw [hrest]
  nofun

theorem reads_sortKey {field : String} : Complete .sortKey [.name field] ⟨field, .asc⟩ :=
  fun _ hrest => .name_bind (.skip hrest.2 (.skip hrest.1 .pure))

theorem reads_ordering {key : SortKey} {keys : List SortKey} (hkey : Complete .sortKey ts key)
    (hkeys : Complete (.more .sortKey) us keys) :
    Complete .ordering (.keyword .order :: .keyword .byWord :: (ts ++ us)) (key :: keys) := by
  intro rest hrest
  refine .accept (.keyword ?_)
  exact Further.reads_list (F := EndsSortKey) hkeys hkey (fun vs a _ ha rest h => ha rest h)
    ⟨nofun, nofun⟩ hrest.2.2 hrest.2.1

theorem reads_clauseCount (k : Keyword) {n : UInt64} (h : Complete .count ts n)
    (rest : List Token) : Reads (clauseCount k) (.keyword k :: ts) rest (some n) :=
  .accept (.last (h rest) .pure)

theorem reads_noClauseCount {k : Keyword} {rest : List Token} (h : front rest ≠ .keyword k) :
    Reads (clauseCount k) [] rest none :=
  .skip h .pure

theorem reads_noPaging : Complete .paging [] (0, 0) :=
  fun _ hrest => .first (reads_noClauseCount hrest.1) (.first (reads_noClauseCount hrest.2) .pure)

theorem reads_skip {n : UInt64} (h : Complete .count ts n) :
    Complete .paging (.keyword .skip :: ts) (n, 0) :=
  fun _ hrest => .last (reads_clauseCount .skip h _) (.first (reads_noClauseCount hrest.2) .pure)

theorem reads_limit {n : UInt64} (h : Complete .count ts n) :
    Complete .paging (.keyword .limit :: ts) (0, n) :=
  fun _ hrest => .first (reads_noClauseCount nofun) (.last (reads_clauseCount .limit h _)
    (.first (reads_noClauseCount hrest.1) .pure))

theorem reads_skipLimit {m n : UInt64} (hm : Complete .count ts m) (hn : Complete .count us n) :
    Complete .paging (.keyword .skip :: (ts ++ .keyword .limit :: us)) (m, n) := by
  intro rest _
  rw [← List.cons_append]
  exact .bind (reads_clauseCount .skip hm _) (.last (reads_clauseCount .limit hn _) .pure)

theorem reads_limitSkip {m n : UInt64} (hn : Complete .count ts n) (hm : Complete .count us m) :
    Complete .paging (.keyword .limit :: (ts ++ .keyword .skip :: us)) (m, n) := by
  intro rest _
  refine .first (reads_noClauseCount nofun) ?_
  rw [← List.cons_append]
  exact .bind (reads_clauseCount .limit hn _) (.last (reads_clauseCount .skip hm _) .pure)

theorem reads_select {ps vs : List Token} {entity : String} {fs : List String}
    {c : Option Condition} {sorts : List SortKey} {skip limit : UInt64}
    (hps : Complete .fields ps fs) (hc : Complete .filter ts c)
    (hsorts : Complete .ordering us sorts) (hpaging : Complete .paging vs (skip, limit))
    (hus : ∀ {p : Token → Prop} {rest}, p (.keyword .order) → p (front rest) →
      p (front (us ++ rest)))
    (hvs : ∀ {p : Token → Prop} {rest}, p (.keyword .skip) → p (.keyword .limit) →
      p (front rest) → p (front (vs ++ rest))) :
    Complete .select
      (.keyword .select :: (ps ++ .keyword .fromWord :: .name entity :: (ts ++ (us ++ vs))))
      ⟨entity, fs, c, sorts, skip, limit⟩ := by
  intro depth rest hdepth hrest
  obtain ⟨depth, rfl⟩ := Nat.exists_eq_succ_of_ne_zero (show depth ≠ 0 by omega)
  simp only [List.length_cons, List.length_append] at hdepth
  have hordering : EndsOrdering (front (vs ++ rest)) :=
    hvs ⟨nofun, nofun, nofun, nofun⟩ ⟨nofun, nofun, nofun, nofun⟩ hrest.2.1
  have hfilter : EndsFilter (front (us ++ vs ++ rest)) := by
    rw [List.append_assoc]
    exact hus ⟨nofun, nofun, nofun⟩ (hvs ⟨nofun, nofun, nofun⟩ ⟨nofun, nofun, nofun⟩ hrest.1)
  exact .keyword (.bind (hps _ rfl) (.keyword (.name_bind (.bind (hc depth _ (by omega) hfilter)
    (.bind (hsorts _ hordering) (.last (hpaging rest hrest.2.2) .pure))))))

end Clauses

section Statements

variable {ts us : List Token}

theorem length_pos_of_startsValue (h : startsValue (front ts) = true) : 0 < ts.length := by
  cases ts with
  | nil => exact absurd h (by decide)
  | cons => exact Nat.succ_pos _

theorem reads_lastKey {v : Operand} (hts : startsValue (front ts) = true)
    (hv : Complete .value ts v) : Complete .keys ts [v] := by
  refine ⟨ts, [], v, [], (List.append_nil ts).symm, rfl, length_pos_of_startsValue hts,
    fun depth rest hdepth hrest => ⟨hv.1 depth rest hdepth, fun limit hlimit => ?_⟩⟩
  obtain ⟨limit, rfl⟩ := Nat.exists_eq_succ_of_ne_zero (Nat.ne_of_gt hlimit)
  refine .skip hrest.1 (.peek (t := front rest) rfl ?_)
  rw [if_neg (by rw [hrest.2]; decide)]
  exact .pure

theorem reads_key {v : Operand} {vs : List Operand} (hts : startsValue (front ts) = true)
    (hv : Complete .value ts v) (hus : ∀ rest, startsValue (front (us ++ rest)) = true)
    (hvs : Complete .keys us vs) : Complete .keys (ts ++ us) (v :: vs) := by
  obtain ⟨ws, xs, y, ys, rfl, rfl, hpos, h⟩ := hvs
  refine ⟨ts, ws ++ xs, v, y :: ys, rfl, rfl, length_pos_of_startsValue hts,
    fun depth rest hdepth hrest => ?_⟩
  rw [List.length_append] at hdepth
  obtain ⟨hy, hys⟩ := h depth rest (by omega) hrest
  refine ⟨hv.1 depth _ (by omega), fun limit hlimit => ?_⟩
  obtain ⟨limit, rfl⟩ := Nat.exists_eq_succ_of_ne_zero (show limit ≠ 0 by omega)
  rw [List.length_append] at hlimit
  refine .skip ?_ (.peek (t := front (ws ++ xs ++ rest)) rfl ?_)
  · intro hcomma
    have := hus rest
    rw [hcomma] at this
    exact absurd this (by decide)
  · rw [if_pos (hus rest)]
    exact .bind hy (.last (hys limit (by omega)) .pure)

theorem reads_commaKey {v : Operand} {vs : List Operand} (hts : startsValue (front ts) = true)
    (hv : Complete .value ts v) (hvs : Complete .keys us vs) :
    Complete .keys (ts ++ .symbol .comma :: us) (v :: vs) := by
  obtain ⟨ws, xs, y, ys, rfl, rfl, hpos, h⟩ := hvs
  refine ⟨ts, .symbol .comma :: (ws ++ xs), v, y :: ys, rfl, rfl, length_pos_of_startsValue hts,
    fun depth rest hdepth hrest => ?_⟩
  rw [List.length_append, List.length_cons] at hdepth
  obtain ⟨hy, hys⟩ := h depth rest (by omega) hrest
  refine ⟨hv.1 depth _ (by omega), fun limit hlimit => ?_⟩
  obtain ⟨limit, rfl⟩ := Nat.exists_eq_succ_of_ne_zero (show limit ≠ 0 by omega)
  rw [List.length_cons, List.length_append] at hlimit
  exact .accept (.bind hy (.last (hys limit (by omega)) .pure))

theorem reads_keys {ks : List Operand} (h : Complete .keys ts ks) {depth : Nat}
    {rest : List Token} (hdepth : 2 * ts.length + 1 ≤ depth) (hrest : EndsKeys (front rest)) :
    Reads (keys depth) ts rest ks := by
  obtain ⟨us, vs, x, xs, rfl, rfl, -, h⟩ := h
  obtain ⟨hx, hxs⟩ := h depth rest hdepth hrest
  refine .bind hx (.last (fun c hc => ?_) .pure)
  refine hxs _ ?_ c hc
  have := congrArg List.length hc
  rw [Cursor.tokens, List.length_map, List.length_append] at this
  omega

theorem reads_assignment {field : String} {v : Operand} (hv : Complete .value ts v) :
    Complete .assignment (.name field :: .symbol .equal :: ts) (.compare field .equal v) := by
  intro depth rest hdepth
  simp only [List.length_cons] at hdepth
  exact .name_bind (.symbol (.last (hv.1 depth rest (by omega)) .pure))

theorem reads_noPayloadDocument {depth : Nat} {rest : List Token} (h : EndsPayload (front rest)) :
    Reads (payloadDocument depth) [] rest none := by
  refine .peek (t := front rest) rfl ?_
  split
  · next hb => exact absurd hb h.1
  · next hb => exact absurd hb h.2.1
  · next p hb => exact absurd hb (h.2.2 p)
  · exact .pure

theorem reads_assignments {c : Condition} {cs : List Condition} (hc : Complete .assignment ts c)
    (hcs : Complete (.more .assignment) us cs) :
    Complete .payload (.symbol .leftParen :: (ts ++ (us ++ [.symbol .rightParen])))
      (.assignments (c :: cs)) := by
  intro depth rest hdepth hrest
  simp only [List.length_cons, List.length_append] at hdepth
  have hlist : Reads (list (assignment depth)) (ts ++ us) ([.symbol .rightParen] ++ rest)
      (c :: cs) :=
    Further.reads_list (F := fun _ => True) hcs hc
      (fun vs a hlen ha rest _ => ha depth rest (by omega)) trivial trivial nofun
  have hassignments : Reads (assignments depth)
      (.symbol .leftParen :: (ts ++ (us ++ [.symbol .rightParen]))) rest (some (c :: cs)) := by
    rw [← List.append_assoc]
    exact .accept (.bind hlist (.symbol .pure))
  exact .last hassignments (.first (reads_noPayloadDocument hrest) .pure)

theorem reads_payloadDocument {v : Operand} {depth : Nat} {rest : List Token}
    (hts : ∀ rest, front (ts ++ rest) ≠ .symbol .leftParen)
    (h : ∀ depth rest, 2 * ts.length + 1 ≤ depth →
      Reads (payloadDocument depth) ts rest (some v))
    (hdepth : 2 * ts.length + 1 ≤ depth) : Reads (payload depth) ts rest (.document v) :=
  .first (.skip (hts rest) .pure) (.last (h depth rest hdepth) .pure)

theorem reads_payloadObject {j : Json} (hj : Complete .object ts j) {depth : Nat}
    {rest : List Token} (hdepth : 2 * ts.length + 1 ≤ depth) :
    Reads (payload depth) ts rest (.document (.document j)) := by
  obtain ⟨us, rfl, hbody, -⟩ := hj
  refine reads_payloadDocument nofun (fun depth rest hdepth => ?_) hdepth
  rw [List.length_cons] at hdepth
  exact .peek (t := .symbol .leftBrace) rfl (.advance (.last (hbody depth rest (by omega)) .pure))

theorem reads_payloadArray {j : Json} (hj : Complete .array ts j) {depth : Nat}
    {rest : List Token} (hdepth : 2 * ts.length + 1 ≤ depth) :
    Reads (payload depth) ts rest (.document (.document j)) := by
  have hdocument := reads_documentArray hj
  obtain ⟨us, rfl, -⟩ := hj
  refine reads_payloadDocument nofun (fun depth rest hdepth => ?_) hdepth
  exact .peek (t := .symbol .leftBracket) rfl (.last (hdocument depth rest (by omega)) .pure)

theorem reads_valueParameter {p : String} : Complete .value [.parameter p] (.parameter p) :=
  reads_value nofun fun _ _ _ => .peek (t := .parameter p) rfl (.mention (.advance .pure))

theorem reads_payloadParameter {p : String} {depth : Nat} {rest : List Token}
    (hdepth : 2 * [Token.parameter p].length + 1 ≤ depth) :
    Reads (payload depth) [.parameter p] rest (.document (.parameter p)) :=
  reads_payloadDocument nofun (fun depth rest hdepth =>
    .peek (t := .parameter p) rfl (.last (reads_valueParameter.1 depth rest hdepth) .pure)) hdepth

theorem reads_lifetime {n : UInt64} {word : String} {unit : TimeUnit} {t : Lifetime}
    (hn : Complete .count ts n) (hunit : TimeUnit.ofWord? word = some unit)
    (ht : Lifetime.ofAmount? n.toNat unit = some t) :
    Complete .lifetime (ts ++ [.name word]) t := by
  refine fun rest => .bind (hn _) (.peek (t := .name word) rfl ?_)
  simp only [hunit, ht]
  exact .advance .pure

/-- An insert without a lifetime is read in front of what continues no payload and is no
amount. -/
theorem reads_insertPlain {into : Bool} {entity : String} {p : Payload} {depth : Nat}
    {rest : List Token} (hp : Complete .payload ts p) (hpayload : EndsPayload (front rest))
    (hamount : ∀ n, front rest ≠ .integer n) (hdepth : 2 * ts.length + 1 ≤ depth) :
    Reads (body depth)
      (.keyword .insert :: ((if into then [.keyword .into] else []) ++ .name entity :: ts)) rest
      (.insert ⟨entity, p, none⟩) := by
  refine .peek (t := .keyword .insert) rfl (.advance (.last ?_ .pure))
  have hinto : Reads (insertInto depth) (.name entity :: ts) rest ⟨entity, p, none⟩ := by
    refine .name_bind (.last (hp depth rest hdepth hpayload) ?_)
    refine .peek (t := front rest) rfl ?_
    split
    · next n hn => exact absurd hn (hamount n)
    · exact .pure
  cases into with
  | true => exact .accept hinto
  | false => exact .skip nofun hinto

theorem reads_insert {into : Bool} {entity : String} {p : Payload} (hp : Complete .payload ts p) :
    Complete .body
      (.keyword .insert :: ((if into then [.keyword .into] else []) ++ .name entity :: ts))
      (.insert ⟨entity, p, none⟩) := by
  intro depth rest hdepth hrest
  simp only [List.length_cons, List.length_append] at hdepth
  refine reads_insertPlain hp hrest.endsPayload (fun n hn => ?_) (by omega)
  have hkeys := hrest.endsKeys.2
  rw [hn] at hkeys
  cases hkeys

theorem reads_insertFor {into : Bool} {entity : String} {p : Payload} {t : Lifetime}
    (hp : Complete .payload ts p) (hus : ∀ rest, ∃ n, front (us ++ rest) = .integer n)
    (ht : Complete .lifetime us t) :
    Complete .body
      (.keyword .insert ::
        ((if into then [.keyword .into] else []) ++ .name entity :: (ts ++ us)))
      (.insert ⟨entity, p, some t⟩) := by
  intro depth rest hdepth _
  simp only [List.length_cons, List.length_append] at hdepth
  refine .peek (t := .keyword .insert) rfl (.advance (.last ?_ .pure))
  obtain ⟨n, hn⟩ := hus rest
  have hpayload : EndsPayload (front (us ++ rest)) := hn ▸ EndsPayload.integer
  have hinto : Reads (insertInto depth) (.name entity :: (ts ++ us)) rest ⟨entity, p, some t⟩ :=
    .name_bind (.bind (hp depth _ (by omega) hpayload) (.peek hn (.last (ht rest) .pure)))
  cases into with
  | true => exact .accept hinto
  | false => exact .skip nofun hinto

theorem reads_update {entity : String} {p : Payload} (hp : Complete .payload ts p) :
    Complete .body (.keyword .update :: .name entity :: ts) (.update ⟨entity, p⟩) := by
  intro depth rest hdepth hrest
  simp only [List.length_cons] at hdepth
  exact .peek (t := .keyword .update) rfl (.advance (.last (.name_bind
    (.last (hp depth rest (by omega) hrest.endsPayload) .pure)) .pure))

theorem reads_delete {entity : String} {fs : List String} {c : Option Condition}
    (hps : Complete .fields ts fs) (hc : Complete .filter us c) :
    Complete .body (.keyword .delete :: (ts ++ .keyword .fromWord :: .name entity :: us))
      (.delete ⟨entity, fs, c⟩) := by
  intro depth rest hdepth hrest
  simp only [List.length_cons, List.length_append] at hdepth
  exact .peek (t := .keyword .delete) rfl (.advance (.last (.bind (hps _ rfl)
    (.keyword (.name_bind (.last (hc depth rest (by omega) hrest.endsSelect.1) .pure)))) .pure))

theorem reads_get {ks : List Operand} (h : Complete .keys ts ks) :
    Complete .body (.keyword .get :: ts) (.get ks) := by
  intro depth rest hdepth hrest
  rw [List.length_cons] at hdepth
  exact .peek (t := .keyword .get) rfl
    (.advance (.last (reads_keys h (by omega) hrest.endsKeys) .pure))

theorem reads_del {ks : List Operand} (h : Complete .keys ts ks) :
    Complete .body (.keyword .del :: ts) (.del ks) := by
  intro depth rest hdepth hrest
  rw [List.length_cons] at hdepth
  exact .peek (t := .keyword .del) rfl
    (.advance (.last (reads_keys h (by omega) hrest.endsKeys) .pure))

theorem reads_put {k v : Operand} (hk : Complete .value ts k) (hv : Complete .value us v) :
    Complete .body
      (.keyword .put :: .symbol .leftBrace ::
        (ts ++ .symbol .comma :: (us ++ [.symbol .rightBrace]))) (.put ⟨k, v, none⟩) := by
  intro depth rest hdepth _
  simp only [List.length_cons, List.length_append] at hdepth
  exact .peek (t := .keyword .put) rfl (.advance (.last (.symbol (.bind (hk.1 depth _ (by omega))
    (.symbol (.bind (hv.1 depth _ (by omega)) (.skip nofun (.symbol .pure)))))) .pure))

theorem reads_putFor {vs : List Token} {k v : Operand} {t : Lifetime}
    (hk : Complete .value ts k) (hv : Complete .value us v) (ht : Complete .lifetime vs t) :
    Complete .body
      (.keyword .put :: .symbol .leftBrace ::
        (ts ++ .symbol .comma :: (us ++ .symbol .comma :: (vs ++ [.symbol .rightBrace]))))
      (.put ⟨k, v, some t⟩) := by
  intro depth rest hdepth _
  simp only [List.length_cons, List.length_append] at hdepth
  exact .peek (t := .keyword .put) rfl (.advance (.last (.symbol (.bind (hk.1 depth _ (by omega))
    (.symbol (.bind (hv.1 depth _ (by omega)) (.accept (.bind (ht _)
      (.first .pure (.symbol .pure)))))))) .pure))

theorem reads_statement {s : Statement} (h : Complete .body ts s) : Complete .statement ts s := by
  intro depth hdepth
  refine .last (h depth [] hdepth .eof) (.skip nofun (.peek (t := .eof) rfl ?_))
  rw [if_pos rfl]
  exact .pure

theorem reads_terminated {s : Statement} (h : Complete .body ts s) :
    Complete .statement (ts ++ [.symbol .semicolon]) s := by
  intro depth hdepth
  rw [List.length_append] at hdepth
  refine .bind (h depth _ (by omega) .semicolon) (.accept (.peek (t := .eof) rfl ?_))
  rw [if_pos rfl]
  exact .pure

end Statements

end StoreQuery.Grammar

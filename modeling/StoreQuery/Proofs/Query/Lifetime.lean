import StoreQuery.Proofs.Query.Parentheses
import StoreQuery.Proofs.Token.Recasing
import StoreQuery.Store.Capability

/-! # Lifetimes in statements

An insert and a put may be given a lifetime, as an amount of a unit. What is written is exactly the
lifetime, and what is read is exactly the amount of the unit. An amount that no signed word holds,
and one whose seconds no word holds, is refused, so that no lifetime becomes another one.
-/

namespace StoreQuery

open Grammar

namespace TimeUnit

variable {word : String} {u : TimeUnit}

theorem map_toLower_of_ofWord? (h : ofWord? word = some u) :
    word.toList.map Char.toLower = u.word.toList ∨
      word.toList.map Char.toLower = u.word.toList ++ ['s'] := by
  have hfind : u.word.toList = singular (word.toList.map Char.toLower) := by
    simpa using List.find?_some h
  rw [hfind, singular]
  split
  · next hlast =>
    obtain ⟨cs, hcs⟩ := List.getLast?_eq_some_iff.1 hlast
    rw [hcs, List.dropLast_concat]
    exact .inr rfl
  · exact .inl rfl

theorem isPlain_of_ofWord? (h : ofWord? word = some u) : Name.isPlain word = true := by
  have hword : ∀ cs, word.toList.map Char.toLower = cs → Name.isPlain word =
      (Name.isDotted true cs && (Keyword.ofWord? (String.ofList cs)).isNone) := by
    rintro cs rfl
    have hidem : (word.toList.map Char.toLower).map Char.toLower =
        word.toList.map Char.toLower := by
      simp only [List.map_map, Function.comp_def, Text.toLower_toLower]
    rw [Name.isPlain, Name.isDotted_map_toLower, Keyword.ofWord?_congr hidem, String.ofList_toList]
  rcases map_toLower_of_ofWord? h with h | h
  · rw [hword _ h]
    cases u <;> decide +kernel
  · rw [hword _ h]
    cases u <;> decide +kernel

theorem writes_of_ofWord? (h : ofWord? word = some u) : Writes word.toList [.name word] := by
  have hplain := isPlain_of_ofWord? h
  have hne : word ≠ "" := by
    rintro rfl
    cases hplain
  have hname := Writes.name hne
  rwa [Name.render, if_pos hplain] at hname

end TimeUnit

namespace Lifetime

theorem exists_inNanos {n : Nat} (h : n / 1000000000 < 0x10000000000000000) :
    ∃ t : Lifetime, t.inNanos = n := by
  have hn : ofNanos? n = some _ := if_pos h
  exact ⟨_, inNanos_ofNanos? hn⟩

theorem ofAmount?_eq_none {n : Nat} {u : TimeUnit}
    (h : 0x10000000000000000 ≤ n * u.inNanos / 1000000000) : ofAmount? n u = none :=
  if_neg (Nat.not_lt.2 h)

end Lifetime

namespace Token

def ofAmount (n : Nat) : Token :=
  ofDigits false (Nat.toDigits 10 n)

theorem ofAmount_of_lt {n : Nat} (h : n < 0x8000000000000000) :
    ofAmount n = .integer (Int64.ofNat n) := by
  simp only [ofAmount, ofDigits, Nat.ofDigitChars_ten_toDigits]
  rw [if_neg (by decide), if_pos h]
  rfl

theorem ofAmount_of_le {n : Nat} (h : 0x8000000000000000 ≤ n) :
    ofAmount n = .invalid .integerTooLarge := by
  simp only [ofAmount, ofDigits, Nat.ofDigitChars_ten_toDigits]
  rw [if_neg (by decide), if_neg (Nat.not_lt.2 h)]

theorem ofAmount_of_count {ts : List Token} {n : UInt64} (h : Produces .count ts n) :
    ts = [ofAmount n.toNat] ∧ n.toNat < 0x8000000000000000 := by
  cases h with
  | @count n hn =>
    have hint : (n.toUInt64.toNat : Int) = n.toInt := (toInt_eq_toNat hn).symm
    have hlt : n.toUInt64.toNat < 0x8000000000000000 := by
      have := n.toInt_lt
      omega
    have hn : Int64.ofNat n.toUInt64.toNat = n := by
      rw [← Int64.toInt_inj, Int64.toInt_ofNat_of_lt hlt, hint]
    rw [ofAmount_of_lt hlt, hn]
    exact ⟨rfl, hlt⟩

theorem writes_ofAmount (n : Nat) : Writes (toString n).toList [ofAmount n] := by
  intro rest hs
  have hdigits : (toString n).toList = Nat.toDigits 10 n := Nat.toList_repr
  have hread : readNumber false (Nat.toDigits 10 n ++ rest) = (ofAmount n, rest) :=
    readNumber_whole (isDigit_toDigits n) (.of_stops hs)
  rw [hdigits]
  exact Lexeme.tokens_number (startsDigit_toDigits n) hread

end Token

section Amounts

variable {n : Nat} {word : String} {u : TimeUnit} {t : Lifetime} {rest : List Token}

theorem TimeUnit.writes_amount (n : Nat) (hu : ofWord? word = some u) :
    Writes (toString n ++ " " ++ word).toList [.ofAmount n, .name word] := by
  simp only [String.toList_append, List.append_assoc]
  exact (Token.writes_ofAmount n).append (writes_of_ofWord? hu).blank rfl

theorem Lifetime.produces_ofAmount (hn : n < 0x8000000000000000)
    (hu : TimeUnit.ofWord? word = some u) (ht : t.inNanos = n * u.inNanos) :
    Produces .lifetime [.ofAmount n, .name word] t := by
  obtain ⟨ts, hts, hlifetime⟩ := Spells.amount hn (TimeUnit.writes_of_ofWord? hu) hu ht
  have htokens := hts.tokens_eq.symm.trans (TimeUnit.writes_amount n hu).tokens_eq
  exact htokens ▸ hlifetime

theorem Lifetime.exists_amount {ts : List Token} (h : Produces .lifetime ts t) :
    ∃ n word u, ts = [.ofAmount n, .name word] ∧ TimeUnit.ofWord? word = some u ∧
      n < 0x8000000000000000 ∧ t.inNanos = n * u.inNanos := by
  cases h with
  | @lifetime us n word u _ hcount hu ht =>
    obtain ⟨rfl, hn⟩ := Token.ofAmount_of_count hcount
    exact ⟨n.toNat, word, u, rfl, hu, hn, inNanos_ofNanos? ht⟩

/-- An amount that no signed word holds, or whose seconds no word holds, is no lifetime. -/
theorem Lifetime.fails_ofAmount (hu : TimeUnit.ofWord? word = some u)
    (hn : 0x8000000000000000 ≤ n ∨ 0x10000000000000000 ≤ n * u.inNanos / TimeUnit.second.inNanos) :
    Fails lifetime (.ofAmount n :: .name word :: rest) := by
  rcases Nat.lt_or_ge n 0x8000000000000000 with hlt | hle
  · have hcount := complete (produces_count hlt) (.name word :: rest)
    have hnone : ofAmount? (UInt64.ofNat n).toNat u = none := by
      rw [UInt64.toNat_ofNat_of_lt' (Nat.lt_trans hlt (by decide))]
      exact ofAmount?_eq_none (hn.resolve_left (Nat.not_le.2 hlt))
    rw [Token.ofAmount_of_lt hlt]
    refine .after hcount (.peek (t := .name word) rfl ?_)
    simp only [hu, hnone]
    exact .fail
  · rw [Token.ofAmount_of_le hle]
    exact .bind (.peek (t := .invalid .integerTooLarge) rfl .unexpected)

end Amounts

namespace Grammar

section Refusals

variable {ts us vs : List Token} {depth : Nat}

theorem fails_insertFor {into : Bool} {entity : String} {p : Payload} {n : Int64}
    (hp : Produces .payload us p) (hts : Fails lifetime ts) (hn : front ts = .integer n)
    (hdepth : 2 * us.length + 1 ≤ depth) :
    Fails (body depth)
      (.keyword .insert ::
        ((if into then [.keyword .into] else []) ++ .name entity :: us ++ ts)) := by
  have hends : EndsPayload (front ts) := hn ▸ EndsPayload.integer
  have hinto : Fails (insertInto depth) (.name entity :: (us ++ ts)) :=
    .name (.after (complete hp depth ts hdepth hends) (.peek hn hts.bind))
  have hinsert : Fails (Grammar.insert depth)
      ((if into then [.keyword .into] else []) ++ .name entity :: (us ++ ts)) := by
    cases into with
    | true => exact .accept hinto
    | false => exact .skip nofun hinto
  rw [List.append_assoc]
  exact .peek (t := .keyword .insert) rfl (.advance hinsert.bind)

theorem fails_insert_invalid {into : Bool} {entity : String} {p : Payload} {e : LexicalFault}
    (hp : Produces .payload us p) (he : front ts = .invalid e)
    (hdepth : 2 * us.length + 1 ≤ depth) :
    Fails (statement depth)
      (.keyword .insert ::
        ((if into then [.keyword .into] else []) ++ .name entity :: us ++ ts)) := by
  have hends : EndsPayload (front ts) := he ▸ EndsPayload.invalid
  have hinsert := @reads_insertPlain us into entity p depth ts (complete hp) hends
    (by rw [he]; nofun) hdepth
  refine .after hinsert (.skip (by rw [he]; nofun) (.peek he ?_))
  exact .unexpected

theorem fails_putFor {k v : Operand} (hk : Produces .value us k) (hv : Produces .value vs v)
    (hts : Fails lifetime ts) (hus : 2 * us.length + 1 ≤ depth)
    (hvs : 2 * vs.length + 1 ≤ depth) :
    Fails (body depth)
      (.keyword .put :: .symbol .leftBrace ::
        (us ++ .symbol .comma :: (vs ++ .symbol .comma :: ts))) :=
  .peek (t := .keyword .put) rfl (.advance (.bind (.symbol (.after ((complete hk).1 depth _ hus)
    (.symbol (.after ((complete hv).1 depth _ hvs) (.accept (.bind hts))))))))

end Refusals

end Grammar

/-- A statement that writes a record or the value of a key, but for its lifetime. -/
inductive Storing where
  | insert (entity : String) (payload : Payload)
  | put (key value : Operand)

namespace Storing

variable {w : Storing} {before ts : List Token} {t : Lifetime} {depth n : Nat} {word : String}
  {u : TimeUnit}

/-- The statement with a lifetime, or without one. -/
def statement : Storing → Option Lifetime → Statement
  | insert entity payload, ttl => .insert ⟨entity, payload, ttl⟩
  | put key v, ttl => .put ⟨key, v, ttl⟩

def text : Storing → String → String
  | insert entity payload, lifetime =>
    "insert " ++ Name.render entity ++ " " ++ payload.render ++ (" " ++ lifetime)
  | put key v, lifetime =>
    "put \x7b" ++ key.render ++ ", " ++ v.render ++ (", " ++ lifetime) ++ "\x7d"

theorem render_statement (w : Storing) (t : Lifetime) :
    (w.statement (some t)).render = w.text t.render := by
  cases w <;> rfl

/-- The tokens after the lifetime. -/
def ending : Storing → List Token
  | insert .. => []
  | put .. => [.symbol .rightBrace]

inductive Opens : Storing → List Token → Prop where
  | insert {into : Bool} {ts : List Token} {entity : String} {payload : Payload}
      (hpayload : Produces .payload ts payload) :
      Opens (.insert entity payload)
        (.keyword .insert :: ((if into then [.keyword .into] else []) ++ .name entity :: ts))
  | put {ts us : List Token} {key v : Operand} (hkey : Produces .value ts key)
      (hvalue : Produces .value us v) :
      Opens (.put key v)
        (.keyword .put :: .symbol .leftBrace ::
          (ts ++ .symbol .comma :: (us ++ [.symbol .comma])))

/-- The tokens before the lifetime are the same for every text of a lifetime. -/
theorem exists_opens (h : (w.statement none).Readable) :
    ∃ before, w.Opens before ∧ ∀ {lifetime : String} {ts}, Writes lifetime.toList ts →
      Lexeme.tokens (w.text lifetime).toList = before ++ (ts ++ w.ending) := by
  cases w with
  | insert entity payload =>
    obtain ⟨hentity, hpayload, -⟩ := h
    obtain ⟨us, hus, hpayload⟩ := hpayload.spells
    refine ⟨_, @Opens.insert false us entity payload hpayload, fun hts => ?_⟩
    rw [text, (Writes.insertFor hentity hus hts).tokens_eq]
    simp [ending]
  | put key v =>
    obtain ⟨hkey, hvalue, -⟩ := h
    obtain ⟨us, hus, hkey⟩ := key.spells hkey
    obtain ⟨vs, hvs, hvalue⟩ := v.spells hvalue
    refine ⟨_, .put hkey hvalue, fun hts => ?_⟩
    rw [text, (Writes.putFor hus hvs hts).tokens_eq]
    simp [ending]

theorem Opens.produces (h : w.Opens before) (ht : Produces .lifetime ts t) :
    Produces .body (before ++ (ts ++ w.ending)) (w.statement (some t)) := by
  cases h with
  | @insert into us entity payload hpayload =>
    have hbody : Produces .body _ ((Storing.insert entity payload).statement (some t)) :=
      @Derives.insertFor _ into us ts entity payload t hpayload ht
    simpa [ending] using hbody
  | @put us vs key v hkey hvalue =>
    have hbody : Produces .body _ ((Storing.put key v).statement (some t)) :=
      .putFor hkey hvalue ht
    simpa [ending] using hbody

theorem exists_opens_of_produces {s : Statement} (h : Produces .body ts s)
    (ht : s.ttl? = some t) :
    ∃ w before us, s = statement w (some t) ∧ w.Opens before ∧ Produces .lifetime us t ∧
      ts = before ++ (us ++ w.ending) := by
  cases h with
  | @insertFor into us vs entity payload t' hpayload hlifetime =>
    cases ht
    exact ⟨.insert entity payload, _, vs, rfl, @Opens.insert into us entity payload hpayload,
      hlifetime, by simp [ending]⟩
  | @putFor us vs ws key v t' hkey hvalue hlifetime =>
    cases ht
    exact ⟨.put key v, _, ws, rfl, .put hkey hvalue, hlifetime, by simp [ending]⟩
  | _ => cases ht

theorem Opens.fails (h : w.Opens before) (hts : Fails lifetime ts)
    (hfront : (∃ n, front ts = .integer n) ∨ ∃ e, front ts = .invalid e)
    (hdepth : 4 * (before ++ ts).length + 8 ≤ depth) :
    Fails (Grammar.statement depth) (before ++ ts) := by
  cases h with
  | @insert into us entity payload hpayload =>
    simp only [List.length_append, List.length_cons] at hdepth
    rw [List.cons_append]
    rcases hfront with ⟨n, hn⟩ | ⟨e, he⟩
    · exact .bind (fails_insertFor hpayload hts hn (by omega))
    · exact fails_insert_invalid hpayload he (by omega)
  | put hkey hvalue =>
    simp only [List.length_append, List.length_cons] at hdepth
    simp only [List.cons_append, List.append_assoc, List.nil_append]
    exact .bind (fails_putFor hkey hvalue hts (by omega) (by omega))

/-- A text gives an amount and the word of a unit as the lifetime of a statement. -/
def Gives (w : Storing) (n : Nat) (word text : String) : Prop :=
  ∃ before after, w.Opens before ∧ (after = [] ∨ after = [.symbol .semicolon]) ∧
    Lexeme.tokens text.toList = before ++ ([.ofAmount n, .name word] ++ w.ending) ++ after

theorem gives_text (h : (w.statement none).Readable) (hu : TimeUnit.ofWord? word = some u) :
    w.Gives n word (w.text (toString n ++ " " ++ word)) := by
  obtain ⟨before, hbefore, htokens⟩ := exists_opens h
  refine ⟨before, [], hbefore, .inl rfl, ?_⟩
  rw [htokens (TimeUnit.writes_amount n hu), List.append_nil]

namespace Gives

variable {s : String}

theorem accept (h : w.Gives n word s) (hu : TimeUnit.ofWord? word = some u)
    (hn : n < 0x8000000000000000) (ht : t.inNanos = n * u.inNanos) :
    (parseStatement s).result = .ok (w.statement (some t)) := by
  obtain ⟨before, after, hbefore, hafter, htokens⟩ := h
  have hbody := hbefore.produces (Lifetime.produces_ofAmount hn hu ht)
  refine parseStatement_of_produces ?_
  rw [htokens]
  rcases hafter with rfl | rfl
  · rw [List.append_nil]
    exact .statement hbody
  · exact .terminated hbody

theorem refuse (h : w.Gives n word s) (hu : TimeUnit.ofWord? word = some u)
    (hn : 0x8000000000000000 ≤ n ∨ 0x10000000000000000 ≤ n * u.inNanos / TimeUnit.second.inNanos) :
    ∃ e, (parseStatement s).result = .error (.grammar e) := by
  obtain ⟨before, after, hbefore, -, htokens⟩ := h
  have hfails : Fails lifetime (.ofAmount n :: .name word :: (w.ending ++ after)) :=
    Lifetime.fails_ofAmount hu hn
  refine parseStatement_of_fails fun depth hdepth => ?_
  rw [htokens, List.append_assoc] at hdepth ⊢
  refine hbefore.fails hfails ?_ hdepth
  rcases Nat.lt_or_ge n 0x8000000000000000 with h | h
  · exact .inl ⟨_, Token.ofAmount_of_lt h⟩
  · exact .inr ⟨_, Token.ofAmount_of_le h⟩

end Gives

theorem exists_gives {s : String} {a : Statement} (h : (parseStatement s).result = .ok a)
    (ht : a.ttl? = some t) :
    ∃ w n word u, a = statement w (some t) ∧ w.Gives n word s ∧
      TimeUnit.ofWord? word = some u ∧ n < 0x8000000000000000 ∧ t.inNanos = n * u.inNanos := by
  obtain ⟨us, after, hafter, hus, hbody⟩ : ∃ us after,
      (after = [] ∨ after = [.symbol .semicolon]) ∧
        Lexeme.tokens s.toList = us ++ after ∧ Produces .body us a := by
    have hproduces := produces_of_parseStatement h
    generalize Lexeme.tokens s.toList = ts at hproduces
    cases hproduces with
    | statement hbody => exact ⟨ts, [], .inl rfl, (List.append_nil ts).symm, hbody⟩
    | @terminated us _ hbody => exact ⟨us, _, .inr rfl, rfl, hbody⟩
  obtain ⟨w, before, vs, rfl, hbefore, hlifetime, rfl⟩ := exists_opens_of_produces hbody ht
  obtain ⟨n, word, u, rfl, hu, hn, hnanos⟩ := Lifetime.exists_amount hlifetime
  exact ⟨w, n, word, u, rfl, ⟨before, after, hbefore, hafter, hus⟩, hu, hn, hnanos⟩

end Storing

namespace Lifetime

/-- The text of a lifetime is an amount of the largest unit that divides it, or `0 second`. A
statement with it is read with exactly this lifetime, and if no signed word holds the amount, the
statement is refused. Any text that gives a lifetime as an amount of a unit is read with exactly so
many units, unless no signed word holds the amount or no word its seconds. Nothing else is read as a
lifetime, and the amount in the text of the statement that was read is not larger, so that this text
is read again. -/
theorem text_exact :
    (∀ t : Lifetime, ∃ (n : Nat) (u : TimeUnit), n * u.inNanos = t.inNanos ∧
      (t.inNanos = 0 → n = 0 ∧ u = .second) ∧
      (t.inNanos ≠ 0 → ∀ v : TimeUnit, v.inNanos ∣ t.inNanos → v.inNanos ≤ u.inNanos) ∧
      ∀ w : Storing,
        (w.statement (some t)).render = w.text (toString n ++ " " ++ u.word) ∧
        ((w.statement none).Readable →
          (n < 0x8000000000000000 →
            (parseStatement (w.statement (some t)).render).result =
              .ok (w.statement (some t))) ∧
          (0x8000000000000000 ≤ n → ∃ e,
            (parseStatement (w.statement (some t)).render).result = .error (.grammar e)))) ∧
    (∀ (w : Storing) (n : Nat) word u text, w.Gives n word text → TimeUnit.ofWord? word = some u →
      (n < 0x8000000000000000 → n * u.inNanos / TimeUnit.second.inNanos < 0x10000000000000000 →
        ∃ t, t.inNanos = n * u.inNanos ∧
          (parseStatement text).result = .ok (w.statement (some t))) ∧
      (0x8000000000000000 ≤ n ∨ 0x10000000000000000 ≤ n * u.inNanos / TimeUnit.second.inNanos →
        ∃ e, (parseStatement text).result = .error (.grammar e))) ∧
    (∀ c t c', lifetime c = .done t c' → ∃ (n : Nat) (word : String) (u : TimeUnit),
      c.tokens = .ofAmount n :: .name word :: c'.tokens ∧ TimeUnit.ofWord? word = some u ∧
        n < 0x8000000000000000 ∧ t.inNanos = n * u.inNanos) ∧
    ∀ text s t, (parseStatement text).result = .ok s → s.ttl? = some t →
      ∃ w n word u, s = Storing.statement w (some t) ∧ w.Gives n word text ∧
        TimeUnit.ofWord? word = some u ∧ n < 0x8000000000000000 ∧ t.inNanos = n * u.inNanos ∧
        ∃ (m : Nat) (v : TimeUnit), s.render = w.text (toString m ++ " " ++ v.word) ∧ m ≤ n ∧
          m * v.inNanos = t.inNanos ∧ (parseStatement s.render).result = .ok s := by
  refine ⟨?printed, ?given, ?rule, ?accepted⟩
  case printed =>
    intro t
    have hproduct := Nat.div_mul_cancel t.unit_dvd
    refine ⟨_, t.unit, hproduct, ?_, fun hne v hv => inNanos_le_unit hne hv, ?_⟩
    · intro hzero
      exact ⟨by rw [hzero, Nat.zero_div], if_pos hzero⟩
    · intro w
      refine ⟨w.render_statement t, fun hw => ?_⟩
      have hgives := Storing.gives_text (n := t.inNanos / t.unit.inNanos) hw t.unit.ofWord?_word
      rw [w.render_statement]
      constructor
      · exact fun hn => hgives.accept t.unit.ofWord?_word hn hproduct.symm
      · exact fun hn => hgives.refuse t.unit.ofWord?_word (.inl hn)
  case given =>
    intro w n word u text hgives hu
    constructor
    · intro hn hseconds
      obtain ⟨t, ht⟩ := exists_inNanos hseconds
      exact ⟨t, ht, hgives.accept hu hn ht⟩
    · exact hgives.refuse hu
  case rule =>
    intro c t c' hc
    obtain ⟨ts, hts, hlifetime⟩ := yields_lifetime c t c' hc
    obtain ⟨n, word, u, rfl, hamount⟩ := exists_amount hlifetime
    exact ⟨n, word, u, hts, hamount⟩
  case accepted =>
    intro text s t hs ht
    obtain ⟨w, n, word, u, rfl, hgives, hu, hn, hnanos⟩ := Storing.exists_gives hs ht
    exact ⟨w, n, word, u, rfl, hgives, hu, hn, hnanos, _, t.unit, w.render_statement t,
      div_unit_le hnanos, Nat.div_mul_cancel t.unit_dvd,
      parseStatement_of_readable (readable_of_parseStatement hs)⟩

theorem text_exact_hours :
    (∃ s, (parseStatement "INSERT INTO T \x7b\x7d 120 Minutes;").result = .ok s ∧
      s.ttl? = some ⟨7200, 0, by decide⟩ ∧ s.render = "insert T \x7b\x7d 2 hour" ∧
      (parseStatement s.render).result = .ok s) ∧
    (∃ e, (parseStatement "put \x7b1, 2, 213503982334602 days\x7d").result =
      .error (.grammar e)) ∧
    ∃ e, (parseStatement "put \x7b1, 2, 18446744073709551615999999999 nanosecond\x7d").result =
      .error (.grammar e) := by
  obtain ⟨hprinted, hgiven, -, hread⟩ := text_exact
  let w : Storing := .put (.literal (.int 1)) (.literal (.int 2))
  have hw : (w.statement none).Readable := ⟨trivial, trivial, nofun⟩
  refine ⟨?_, ?_, ?_⟩
  · have heval : (parseStatement "INSERT INTO T \x7b\x7d 120 Minutes;").result.toOption.map
        (fun s => (s.render, s.ttl?)) =
          some ("insert T \x7b\x7d 2 hour", some ⟨7200, 0, by decide⟩) := by
      decide +kernel
    cases h : (parseStatement "INSERT INTO T \x7b\x7d 120 Minutes;").result with
    | error => rw [h] at heval; cases heval
    | ok s =>
      rw [h] at heval
      obtain ⟨hrender, httl⟩ := Prod.mk.inj (Option.some.inj heval)
      obtain ⟨-, -, -, -, -, -, -, -, -, -, -, -, -, -, hagain⟩ := hread _ s _ h httl
      exact ⟨s, rfl, httl, hrender, hagain⟩
  · have hday : TimeUnit.ofWord? "days" = some .day := by decide +kernel
    have hgives := Storing.gives_text (n := 213503982334602) hw hday
    have htext : w.text (toString 213503982334602 ++ " " ++ "days") =
        "put \x7b1, 2, 213503982334602 days\x7d" := by
      decide +kernel
    rw [htext] at hgives
    exact (hgiven w _ _ .day _ hgives hday).2 (.inr (by decide))
  · let t : Lifetime := ⟨18446744073709551615, 999999999, by decide⟩
    have htext : (w.statement (some t)).render =
        "put \x7b1, 2, 18446744073709551615999999999 nanosecond\x7d" := by
      decide +kernel
    obtain ⟨n, u, hproduct, -, -, hall⟩ := hprinted t
    obtain ⟨-, hparse⟩ := hall w
    rw [htext] at hparse
    refine (hparse hw).2 ?_
    have hnanos : t.inNanos = 18446744073709551615999999999 := by decide +kernel
    rw [hnanos] at hproduct
    cases u <;> simp only [TimeUnit.inNanos] at hproduct <;> omega

end Lifetime

end StoreQuery

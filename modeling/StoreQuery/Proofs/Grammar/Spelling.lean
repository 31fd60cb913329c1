import StoreQuery.Proofs.Query.Readable
import StoreQuery.Proofs.Token.Literal
import StoreQuery.Query.Text

/-! # What texts spell

Some characters spell a part of a statement if the tokens that they write are derived for it. The
canonical texts of documents, counts, names and lifetimes spell them.
-/

namespace StoreQuery

open Grammar Number

/-- Some characters write tokens from which a nonterminal derives a part of a statement. -/
def Spells (n : Nonterminal) (cs : List Char) (a : n.Result) : Prop :=
  ∃ ts, Writes cs ts ∧ Produces n ts a

theorem Token.stops_append {cs ds : List Char} (hcs : Token.stops cs = true)
    (hds : Token.stops ds = true) : Token.stops (cs ++ ds) = true := by
  cases cs with
  | nil => exact hds
  | cons => exact hcs

theorem Writes.between {l r : Symbol} {a b : Char} {cs : List Char} {ts us : List Token}
    (h : Writes cs (ts ++ us)) (hl : l.mark? = some a) (hr : r.mark? = some b)
    (hb : Token.stops [b] = true) :
    Writes (a :: (cs ++ [b])) (.symbol l :: (ts ++ (us ++ [.symbol r]))) := by
  have hend := h.append (Closes.mark hr).writes hb
  rw [List.append_assoc] at hend
  exact (Closes.mark hl).append_writes hend

theorem Spells.one {n : Nonterminal} {cs : List Char} {a : n.Result} {t : Token}
    (h : Writes cs [t]) (ha : Produces n [t] a) : Spells n cs a :=
  ⟨[t], h, ha⟩

namespace Closes

theorem comma : Closes ", ".toList [.symbol .comma] :=
  (mark (s := .comma) rfl).append blank

theorem spacedSymbol {s : Symbol} {c : Char} (cs : List Char) (hb : Text.isBlank c = false)
    (hm : c ≠ '-') (hs : c ≠ '/')
    (hread : ∀ rest, Token.read c (cs ++ ' ' :: rest) = (.symbol s, ' ' :: rest)) :
    Closes (' ' :: c :: (cs ++ [' '])) [.symbol s] := by
  intro rest
  have hblank : ∀ ds, Lexeme.tokens (' ' :: ds) = Lexeme.tokens ds :=
    Lexeme.tokens_of_isBlank (by decide)
  rw [List.cons_append, hblank, List.cons_append, List.append_assoc,
    Lexeme.tokens_eq_read hb (fun h => absurd h hm) (fun h => absurd h hs), List.singleton_append,
    hread, hblank]
  rfl

theorem comparison (c : Comparison) :
    ∃ t, comparison? t = some c ∧ Closes (" " ++ c.render ++ " ").toList [t] := by
  cases c with
  | equal =>
    exact ⟨.symbol .equal, rfl, spacedSymbol [] rfl nofun nofun fun _ => rfl⟩
  | greater =>
    exact ⟨.symbol .greater, rfl, spacedSymbol [] rfl nofun nofun fun _ => rfl⟩
  | greaterOrEqual =>
    exact ⟨.symbol .greaterEqual, rfl, spacedSymbol ['='] rfl nofun nofun fun _ => rfl⟩
  | less =>
    exact ⟨.symbol .less, rfl, spacedSymbol [] rfl nofun nofun fun _ => rfl⟩
  | lessOrEqual =>
    exact ⟨.symbol .lessEqual, rfl, spacedSymbol ['='] rfl nofun nofun fun _ => rfl⟩
  | like => exact ⟨.keyword .like, rfl, spaced .like⟩

end Closes

namespace Json

/-- Some tokens are derived for a document, and for an object or an array as one. -/
def Derived (ts : List Token) : Json → Prop
  | object members => Produces .object ts (.object members)
  | array items => Produces .array ts (.array items)
  | j => Produces .document ts j

theorem Derived.document {ts : List Token} {j : Json} (h : j.Derived ts) :
    Produces .document ts j := by
  cases j with
  | object => exact .documentObject h
  | array => exact .documentArray h
  | _ => exact h

theorem Derived.value {ts : List Token} {j : Json} (h : j.Derived ts) (hj : j.IsContainer) :
    Produces .value ts (.document j) := by
  cases j with
  | object => exact .valueObject h
  | array => exact .valueArray h
  | _ => cases hj

theorem Derived.payload {ts : List Token} {j : Json} (h : j.Derived ts) (hj : j.IsContainer) :
    Produces .payload ts (.document (.document j)) := by
  cases j with
  | object => exact .payloadObject h
  | array => exact .payloadArray h
  | _ => cases hj

theorem stops_compactItems (js : List Json) : Token.stops (compactItems js).toList = true := by
  cases js with
  | nil => rfl
  | cons j js =>
    simp only [compactItems, String.toList_append]
    rfl

theorem stops_compactMembers (ms : List (String × Json)) :
    Token.stops (compactMembers ms).toList = true := by
  cases ms with
  | nil => rfl
  | cons m ms =>
    simp only [compactMembers, String.toList_append]
    rfl

/-- Members in any order spell the object of their keys, the last value of a key winning. -/
theorem closes_object (key : String) {j : Json} {ms : List (String × Json)}
    (hj : Spells .document j.compact.toList j)
    (hms : Spells (.more .member) (compactMembers ms).toList ms) :
    ∃ ts, Closes (object ((key, j) :: ms)).compact.toList ts ∧
      Produces .object ts (ofMembers ((key, j) :: ms)) := by
  obtain ⟨ts, hts, hj⟩ := hj
  obtain ⟨us, hus, hms⟩ := hms
  have hend : Closes ((compactMembers ms).toList ++ "\x7d".toList)
      (us ++ [.symbol .rightBrace]) := hus.append_closes (.mark rfl) rfl nofun
  have hmember : Writes ((Text.quote key).toList ++ (":".toList ++ j.compact.toList))
      (.text key :: .symbol .colon :: ts) :=
    (Closes.quote key).append_writes ((Closes.mark (s := .colon) rfl).append_writes hts)
  refine ⟨_, ?_, .object (.member hj) hms⟩
  simp only [compact, String.toList_append, List.append_assoc]
  have hbody := hmember.append_closes hend (Token.stops_append (stops_compactMembers ms) rfl)
    (List.append_ne_nil_of_right_ne_nil _ nofun)
  simp only [List.append_assoc] at hbody
  exact (Closes.mark (s := .leftBrace) rfl).append hbody

theorem closes_array {j : Json} {js : List Json} (hj : Spells .document j.compact.toList j)
    (hjs : Spells (.more .document) (compactItems js).toList js) :
    ∃ ts, Closes (array (j :: js)).compact.toList ts ∧ Produces .array ts (.array (j :: js)) := by
  obtain ⟨ts, hts, hj⟩ := hj
  obtain ⟨us, hus, hjs⟩ := hjs
  have hend : Closes ((compactItems js).toList ++ "]".toList) (us ++ [.symbol .rightBracket]) :=
    hus.append_closes (.mark rfl) rfl nofun
  refine ⟨_, ?_, .array hj hjs⟩
  simp only [compact, String.toList_append, List.append_assoc]
  exact (Closes.mark (s := .leftBracket) rfl).append
    (hts.append_closes hend (Token.stops_append (stops_compactItems js) rfl)
      (List.append_ne_nil_of_right_ne_nil _ nofun))

theorem closes_emptyObject :
    Closes (object []).compact.toList [.symbol .leftBrace, .symbol .rightBrace] :=
  (Closes.mark (s := .leftBrace) rfl).append (.mark (s := .rightBrace) rfl)

theorem closes_emptyArray :
    Closes (array []).compact.toList [.symbol .leftBracket, .symbol .rightBracket] :=
  (Closes.mark (s := .leftBracket) rfl).append (.mark (s := .rightBracket) rfl)

mutual

/-- The compact text of a document writes tokens that are derived for it. -/
theorem exists_derived : ∀ j : Json, j.Readable → ∃ ts, Writes j.compact.toList ts ∧ j.Derived ts
  | null, _ => ⟨_, Writes.keyword .null, .documentNull⟩
  | bool true, _ => ⟨_, Writes.keyword .true, .documentTrue⟩
  | bool false, _ => ⟨_, Writes.keyword .false, .documentFalse⟩
  | text s, _ => ⟨_, (Closes.quote s).writes, .documentText⟩
  | number (.float x), _ => by
    refine ⟨_, ?_, .documentNumber .float⟩
    simpa only [compact, Num.write, String.toList_ofList] using Writes.float rfl x
  | number (.integer n), h => by
    obtain ⟨m, rfl⟩ := h
    exact ⟨_, Writes.integer m, .documentNumber .integer⟩
  | array js, h => by
    obtain ⟨ts, hts, hjs⟩ := exists_closed_array js h
    exact ⟨ts, hts.writes, hjs⟩
  | object ms, h => by
    obtain ⟨ts, hts, hms⟩ := exists_closed_object ms h
    exact ⟨ts, hts.writes, hms⟩

theorem exists_closed_array : ∀ js : List Json, AllReadable js →
    ∃ ts, Closes (array js).compact.toList ts ∧ Produces .array ts (.array js)
  | [], _ => ⟨_, closes_emptyArray, .emptyArray⟩
  | j :: js, h => by
    obtain ⟨ts, hts, hj⟩ := exists_derived j h.1
    exact closes_array ⟨ts, hts, hj.document⟩ (exists_derived_items js h.2)

theorem exists_closed_object : ∀ ms : List (String × Json), (object ms).Readable →
    ∃ ts, Closes (object ms).compact.toList ts ∧ Produces .object ts (.object ms)
  | [], _ => ⟨_, closes_emptyObject, .emptyObject⟩
  | (key, j) :: ms, h => by
    obtain ⟨ts, hts, hj⟩ := exists_derived j h.2.1
    have hobject := closes_object key ⟨ts, hts, hj.document⟩ (exists_derived_members ms h.2.2)
    rwa [ofMembers_of_isSorted h.1] at hobject

theorem exists_derived_items : ∀ js : List Json, AllReadable js →
    Spells (.more .document) (compactItems js).toList js
  | [], _ => ⟨[], .nil, .moreNil⟩
  | j :: js, h => by
    obtain ⟨ts, hts, hj⟩ := exists_derived j h.1
    obtain ⟨us, hus, hjs⟩ := exists_derived_items js h.2
    refine ⟨_, ?_, .moreCons hj.document hjs⟩
    simp only [compactItems, String.toList_append, List.append_assoc]
    exact (Closes.mark (s := .comma) rfl).append_writes (hts.append hus (stops_compactItems js))

theorem exists_derived_members : ∀ ms : List (String × Json), MembersReadable ms →
    Spells (.more .member) (compactMembers ms).toList ms
  | [], _ => ⟨[], .nil, .moreNil⟩
  | (key, j) :: ms, h => by
    obtain ⟨ts, hts, hj⟩ := exists_derived j h.1
    obtain ⟨us, hus, hms⟩ := exists_derived_members ms h.2
    refine ⟨_, ?_, .moreCons (.member hj.document) hms⟩
    simp only [compactMembers, String.toList_append, List.append_assoc]
    exact (Closes.mark (s := .comma) rfl).append_writes ((Closes.quote key).append_writes
      ((Closes.mark (s := .colon) rfl).append_writes (hts.append hus (stops_compactMembers ms))))

end

theorem exists_closed {j : Json} (hj : j.IsContainer) (h : j.Readable) :
    ∃ ts, Closes j.compact.toList ts ∧ j.Derived ts := by
  cases j with
  | array js => exact exists_closed_array js h
  | object ms => exact exists_closed_object ms h
  | _ => cases hj

end Json

/-- The operand that the text of a document gives: what stands in braces or brackets remains a
document. -/
def Operand.written : Json → Operand
  | .object members => .document (.object members)
  | .array items => .document (.array items)
  | j => .literal (.ofJson j)

theorem Spells.written : ∀ {j : Json}, j.Readable → Spells .value j.compact.toList (.written j)
  | .null, _ => ⟨_, Writes.keyword .null, .valueNull⟩
  | .bool true, _ => ⟨_, Writes.keyword .true, .valueTrue⟩
  | .bool false, _ => ⟨_, Writes.keyword .false, .valueFalse⟩
  | .text s, _ => ⟨_, (Closes.quote s).writes, .valueText⟩
  | .number (.float x), _ => by
    refine ⟨_, ?_, .valueNumber .float⟩
    simpa only [Json.compact, Json.Num.write, String.toList_ofList] using Writes.float rfl x
  | .number (.integer n), h => by
    obtain ⟨m, rfl⟩ := h
    refine ⟨_, Writes.integer m, ?_⟩
    have hm : Operand.written (.ofInt64 m) = .literal (.int m) := by
      simp only [Operand.written, Json.ofInt64, Value.ofJson, Json.Integer.toInt64?_ofInt64]
    exact hm ▸ .valueNumber .integer
  | .array js, h => by
    obtain ⟨ts, hts, hj⟩ := Json.exists_derived (.array js) h
    exact ⟨ts, hts, hj.value trivial⟩
  | .object ms, h => by
    obtain ⟨ts, hts, hj⟩ := Json.exists_derived (.object ms) h
    exact ⟨ts, hts, hj.value trivial⟩

namespace Lifetime

theorem ofNanos?_inNanos (t : Lifetime) : ofNanos? t.inNanos = some t := by
  have hlt := t.nanos_lt
  have hs : t.inNanos / 1000000000 = t.seconds.toNat := by
    unfold inNanos
    omega
  have hn : t.inNanos % 1000000000 = t.nanos := by
    unfold inNanos
    omega
  rw [ofNanos?]
  simp only [hs, hn, if_pos t.seconds.toNat_lt, UInt64.ofNat_toNat]

theorem ofAmount?_eq_some_iff {n : Nat} {u : TimeUnit} {t : Lifetime} :
    ofAmount? n u = some t ↔ t.inNanos = n * u.inNanos := by
  refine ⟨inNanos_ofNanos?, fun h => ?_⟩
  rw [ofAmount?, ← h, ofNanos?_inNanos]

end Lifetime

theorem TimeUnit.ofWord?_word (u : TimeUnit) : ofWord? u.word = some u := by
  cases u <;> decide +kernel

theorem Grammar.produces_count {n : Nat} (h : n < 0x8000000000000000) :
    Produces .count [.integer (Int64.ofNat n)] (UInt64.ofNat n) := by
  have hint : (Int64.ofNat n).toInt = n := Int64.toInt_ofNat_of_lt h
  have hnonneg : 0 ≤ Int64.ofNat n := by
    rw [Int64.le_iff_toInt_le, hint]
    exact Int.natCast_nonneg n
  have hword : (Int64.ofNat n).toUInt64 = UInt64.ofNat n := by
    rw [← UInt64.toNat_inj, Int64.toNat_toUInt64_of_le hnonneg, Int64.toNatClampNeg, hint,
      Int.toNat_natCast, UInt64.toNat_ofNat_of_lt' (Nat.lt_trans h (by decide))]
  exact hword ▸ .count hnonneg

namespace Spells

theorem name {s : String} (h : s ≠ "") : Spells .name (Name.render s).toList s :=
  .one (.name h) .name

theorem count {n : UInt64} (h : n.toNat < 0x8000000000000000) :
    Spells .count (toString n.toNat).toList n := by
  have hwrites := Writes.integer (Int64.ofNat n.toNat)
  have hproduces := produces_count h
  rw [Int64.toInt_ofNat_of_lt h] at hwrites
  rw [UInt64.ofNat_toNat] at hproduces
  exact .one hwrites hproduces

theorem amount {n : Nat} {word : String} {u : TimeUnit} {t : Lifetime}
    (hn : n < 0x8000000000000000) (hword : Writes word.toList [.name word])
    (hu : TimeUnit.ofWord? word = some u) (ht : t.inNanos = n * u.inNanos) :
    Spells .lifetime (toString n ++ " " ++ word).toList t := by
  have hamount : (UInt64.ofNat n).toNat = n :=
    UInt64.toNat_ofNat_of_lt' (Nat.lt_trans hn (by decide))
  obtain ⟨ts, hts, hcount⟩ := count (n := .ofNat n) (by rwa [hamount])
  rw [hamount] at hts
  refine ⟨_, ?_, .lifetime hcount hu (by rw [hamount, Lifetime.ofAmount?_eq_some_iff, ht])⟩
  simp only [String.toList_append, List.append_assoc]
  exact hts.append hword.blank rfl

theorem lifetime {t : Lifetime} (h : t.Readable) : Spells .lifetime t.render.toList t := by
  have hword : ∀ u : TimeUnit, Writes u.word.toList [.name u.word] := by
    intro u
    have hne : u.word ≠ "" := by cases u <;> decide
    have hplain : Name.render u.word = u.word := by cases u <;> decide +kernel
    have hname := Writes.name hne
    rwa [hplain] at hname
  exact amount h (hword t.unit) t.unit.ofWord?_word (Nat.div_mul_cancel t.unit_dvd).symm

theorem intercalate_map {α : Type} {n : Nonterminal} {f : α → String} {g : α → n.Result}
    {as : List α} (has : ∀ a ∈ as, Spells n (f a).toList (g a)) {a : α}
    (ha : Spells n (f a).toList (g a)) :
    ∃ ts us, Writes (", ".intercalate ((a :: as).map f)).toList (ts ++ us) ∧
      Produces n ts (g a) ∧ Produces (.more n) us (as.map g) := by
  obtain ⟨ts, hts, ha⟩ := ha
  induction as generalizing a ts with
  | nil =>
    refine ⟨ts, [], ?_, ha, .moreNil⟩
    rwa [List.append_nil, List.map_singleton, String.intercalate_singleton]
  | cons b as ih =>
    rw [List.forall_mem_cons] at has
    obtain ⟨us, hus, hb⟩ := has.1
    obtain ⟨us, vs, hvs, hb, has⟩ := ih has.2 us hus hb
    refine ⟨ts, _, ?_, ha, .moreCons hb has⟩
    rw [List.map_cons, List.map_cons, String.intercalate_cons_cons, String.toList_append,
      String.toList_append, List.append_assoc]
    exact hts.append (Closes.comma.append_writes hvs) rfl

theorem intercalate {n : Nonterminal} {f : n.Result → String} {as : List n.Result}
    (has : ∀ a ∈ as, Spells n (f a).toList a) {a : n.Result} (ha : Spells n (f a).toList a) :
    ∃ ts us, Writes (", ".intercalate ((a :: as).map f)).toList (ts ++ us) ∧ Produces n ts a ∧
      Produces (.more n) us as := by
  have h := intercalate_map (g := id) has ha
  rwa [List.map_id] at h

theorem fields {fs : List String} (hne : fs ≠ []) (h : ∀ f ∈ fs, f ≠ "") :
    Spells .fields (Name.renderList fs).toList fs := by
  obtain ⟨f, fs, rfl⟩ := List.exists_cons_of_ne_nil hne
  rw [List.forall_mem_cons] at h
  obtain ⟨ts, us, hwrites, hf, hfs⟩ :=
    intercalate (n := .name) (f := Name.render) (fun g hg => name (h.2 g hg)) (name h.1)
  cases hf with
  | name => exact ⟨_, hwrites, .fields hfs⟩

theorem sortKey {s : SortKey} (h : s.name ≠ "") : Spells .sortKey s.render.toList s := by
  obtain ⟨n, direction⟩ := s
  simp only [SortKey.render, String.toList_append, List.append_assoc]
  cases direction with
  | asc => exact ⟨_, (Writes.name h).append (Writes.keyword .asc).blank rfl, .ascending⟩
  | desc => exact ⟨_, (Writes.name h).append (Writes.keyword .desc).blank rfl, .descending⟩

theorem ordering {sorts : List SortKey} (h : ∀ s ∈ sorts, s.name ≠ "") :
    Spells .ordering (SortKey.renderClause sorts).toList sorts := by
  cases sorts with
  | nil => exact ⟨[], .nil, .noOrdering⟩
  | cons s sorts =>
    rw [List.forall_mem_cons] at h
    obtain ⟨ts, us, hwrites, hs, hsorts⟩ :=
      intercalate (n := .sortKey) (f := SortKey.render) (fun r hr => sortKey (h.2 r hr))
        (sortKey h.1)
    refine ⟨_, ?_, .ordering hs hsorts⟩
    rw [SortKey.renderClause, String.toList_append]
    · exact ((Closes.spaced .order).append (Closes.keyword .byWord)).append_writes hwrites
    · nofun

theorem clause (k : Keyword) {n : UInt64} (h : n.toNat < 0x8000000000000000) :
    ∃ ts, Writes (' ' :: (k.word.toList ++ [' ']) ++ (toString n.toNat).toList)
      (.keyword k :: ts) ∧ Produces .count ts n := by
  obtain ⟨ts, hts, hn⟩ := count h
  exact ⟨ts, (Closes.spaced k).append_writes hts, hn⟩

theorem paging {skip limit : UInt64} (hskip : skip.toNat < 0x8000000000000000)
    (hlimit : limit.toNat < 0x8000000000000000) :
    Spells .paging (Select.renderPaging skip limit).toList (skip, limit) := by
  have hzero : ∀ {n : UInt64}, ¬ 0 < n → n = 0 := fun h => by
    rw [UInt64.lt_iff_toNat_lt] at h
    rw [← UInt64.toNat_inj]
    exact Nat.eq_zero_of_not_pos h
  obtain ⟨ts, hts, hskip⟩ := clause .skip hskip
  obtain ⟨us, hus, hlimit⟩ := clause .limit hlimit
  rw [Select.renderPaging, String.toList_append]
  split
  · next =>
    rw [String.toList_append]
    split
    · next =>
      rw [String.toList_append]
      exact ⟨_, hts.append hus rfl, .skipLimit hskip hlimit⟩
    · next h =>
      rw [hzero h]
      exact ⟨_, hts.append .nil rfl, by rw [List.append_nil]; exact .skip hskip⟩
  · next h =>
    rw [hzero h]
    split
    · next =>
      rw [String.toList_append]
      exact ⟨_, hus, .limit hlimit⟩
    · next h =>
      rw [hzero h]
      exact ⟨[], .nil, .noPaging⟩

end Spells

end StoreQuery

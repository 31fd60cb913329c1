import StoreQuery.Grammar.Statement
import StoreQuery.Proofs.Grammar.Row

/-! # The grammar

A derivation says that a nonterminal produces some tokens and which part of a statement they stand
for. Conditions are flat rows of negations, parentheses and tests with connectives between them;
how the connectives bind is left to `Condition.join`.
-/

namespace StoreQuery

namespace Grammar

/-- The nonterminals. `more` stands for further items, each after a comma. -/
inductive Nonterminal where
  | number
  | count
  | name
  | member
  | object
  | array
  | document
  | value
  | choices
  | predicate (field : String)
  | unary
  | links
  | condition
  | filter
  | fields
  | sortKey
  | ordering
  | paging
  | select
  | keys
  | assignment
  | payload
  | lifetime
  | body
  | statement
  | more (item : Nonterminal)

/-- What the tokens of a nonterminal stand for. -/
@[reducible]
def Nonterminal.Result : Nonterminal → Type
  | number => Value
  | count => UInt64
  | name => String
  | member => String × Json
  | object | array | document => Json
  | value | choices => Operand
  | predicate _ | unary | condition | assignment => Condition
  | links => List (Connective × Condition)
  | filter => Option Condition
  | fields => List String
  | sortKey => SortKey
  | ordering => List SortKey
  | paging => UInt64 × UInt64
  | select => Select
  | keys => List Operand
  | payload => Payload
  | lifetime => Lifetime
  | body | statement => Statement
  | more item => List item.Result

section Derives

variable (single : Operand → Prop)

/-- `Derives single n ts a` says that `n` produces `ts`, which stand for `a`. What may follow `in`
without parentheses is told by `single`. -/
inductive Derives : (n : Nonterminal) → List Token → n.Result → Prop where
  | integer {n : Int64} : Derives .number [.integer n] (.int n)
  | float {x : Number.Binary64.Finite} : Derives .number [.float x] (.float (.finite x))
  | minusInteger {n : Int64} (h : n ≠ .minValue) :
      Derives .number [.symbol .minus, .integer n] (.int (-n))
  | minusFloat {x : Number.Binary64.Finite} :
      Derives .number [.symbol .minus, .float x] (.float (.finite x.neg))
  | count {n : Int64} (h : 0 ≤ n) : Derives .count [.integer n] n.toUInt64
  | name {s : String} : Derives .name [.name s] s

  | moreNil {n : Nonterminal} : Derives (.more n) [] []
  | moreCons {n : Nonterminal} {ts us : List Token} {a : n.Result} {as : List n.Result}
      (item : Derives n ts a) (items : Derives (.more n) us as) :
      Derives (.more n) (.symbol .comma :: (ts ++ us)) (a :: as)

  | member {key : String} {ts : List Token} {j : Json} (value : Derives .document ts j) :
      Derives .member (.text key :: .symbol .colon :: ts) (key, j)
  | emptyObject : Derives .object [.symbol .leftBrace, .symbol .rightBrace] (.object [])
  | object {ts us : List Token} {m : String × Json} {ms : List (String × Json)}
      (first : Derives .member ts m) (others : Derives (.more .member) us ms) :
      Derives .object (.symbol .leftBrace :: (ts ++ (us ++ [.symbol .rightBrace])))
        (.ofMembers (m :: ms))
  | emptyArray : Derives .array [.symbol .leftBracket, .symbol .rightBracket] (.array [])
  | array {ts us : List Token} {j : Json} {js : List Json}
      (first : Derives .document ts j) (others : Derives (.more .document) us js) :
      Derives .array (.symbol .leftBracket :: (ts ++ (us ++ [.symbol .rightBracket])))
        (.array (j :: js))
  | documentText {s : String} : Derives .document [.text s] (.text s)
  | documentNumber {ts : List Token} {v : Value} (number : Derives .number ts v) :
      Derives .document ts v.toJson
  | documentTrue : Derives .document [.keyword .true] (.bool true)
  | documentFalse : Derives .document [.keyword .false] (.bool false)
  | documentNull : Derives .document [.keyword .null] .null
  | documentObject {ts : List Token} {j : Json} (object : Derives .object ts j) :
      Derives .document ts j
  | documentArray {ts : List Token} {j : Json} (array : Derives .array ts j) :
      Derives .document ts j

  | valueText {s : String} : Derives .value [.text s] (.literal (.text s))
  | valueNumber {ts : List Token} {v : Value} (number : Derives .number ts v) :
      Derives .value ts (.literal v)
  | valueTrue : Derives .value [.keyword .true] (.literal (.bool true))
  | valueFalse : Derives .value [.keyword .false] (.literal (.bool false))
  | valueNull : Derives .value [.keyword .null] (.literal .null)
  | valueParameter {p : String} : Derives .value [.parameter p] (.parameter p)
  | valueObject {ts : List Token} {j : Json} (object : Derives .object ts j) :
      Derives .value ts (.document j)
  | valueArray {ts : List Token} {j : Json} (array : Derives .array ts j) :
      Derives .value ts (.document j)
  | valueList {ts us : List Token} {x : Operand} {xs : List Operand}
      (first : Derives .value ts x) (others : Derives (.more .value) us xs) :
      Derives .value (.symbol .leftBrace :: (ts ++ (us ++ [.symbol .rightBrace])))
        (.list (x :: xs))
  | valueSelect {ts : List Token} {s : Select} (select : Derives .select ts s) :
      Derives .value (.symbol .leftParen :: (ts ++ [.symbol .rightParen])) (.nested s)

  | choicesSingle {ts : List Token} {v : Operand} (value : Derives .value ts v) (h : single v) :
      Derives .choices ts v
  | choicesList {ts us : List Token} {x : Operand} {xs : List Operand}
      (first : Derives .value ts x) (others : Derives (.more .value) us xs) :
      Derives .choices (.symbol .leftParen :: (ts ++ (us ++ [.symbol .rightParen])))
        (.list (x :: xs))
  | compare {field : String} {t : Token} {ts : List Token} {c : Comparison} {v : Operand}
      (h : comparison? t = some c) (value : Derives .value ts v) :
      Derives (.predicate field) (t :: ts) (.compare field c v)
  | between {field : String} {ts us : List Token} {low high : Operand}
      (first : Derives .value ts low) (second : Derives .value us high) :
      Derives (.predicate field) (.keyword .between :: (ts ++ .keyword .and :: us))
        (.between field low high)
  | within {field : String} {ts : List Token} {v : Operand} (values : Derives .choices ts v) :
      Derives (.predicate field) (.keyword .inWord :: ts) (.within field v)

  | not {ts : List Token} {c : Condition} (part : Derives .unary ts c) :
      Derives .unary (.keyword .not :: ts) (.not c)
  | parens {ts : List Token} {c : Condition} (part : Derives .condition ts c) :
      Derives .unary (.symbol .leftParen :: (ts ++ [.symbol .rightParen])) c
  | test {field : String} {ts : List Token} {c : Condition}
      (predicate : Derives (.predicate field) ts c) : Derives .unary (.name field :: ts) c
  | linksNil : Derives .links [] []
  | linksCons {o : Connective} {ts us : List Token} {c : Condition}
      {cs : List (Connective × Condition)} (part : Derives .unary ts c)
      (parts : Derives .links us cs) : Derives .links (o.token :: (ts ++ us)) ((o, c) :: cs)
  | condition {ts us : List Token} {c : Condition} {cs : List (Connective × Condition)}
      (first : Derives .unary ts c) (others : Derives .links us cs) :
      Derives .condition (ts ++ us) (.join c cs)
  | noFilter : Derives .filter [] none
  | filter {ts : List Token} {c : Condition} (condition : Derives .condition ts c) :
      Derives .filter (.keyword .whereWord :: ts) (some c)

  | noFields : Derives .fields [] []
  | star : Derives .fields [.symbol .star] []
  | fields {field : String} {ts : List Token} {fields : List String}
      (others : Derives (.more .name) ts fields) :
      Derives .fields (.name field :: ts) (field :: fields)
  | sortKey {field : String} : Derives .sortKey [.name field] ⟨field, .asc⟩
  | ascending {field : String} : Derives .sortKey [.name field, .keyword .asc] ⟨field, .asc⟩
  | descending {field : String} : Derives .sortKey [.name field, .keyword .desc] ⟨field, .desc⟩
  | noOrdering : Derives .ordering [] []
  | ordering {ts us : List Token} {key : SortKey} {keys : List SortKey}
      (first : Derives .sortKey ts key) (others : Derives (.more .sortKey) us keys) :
      Derives .ordering (.keyword .order :: .keyword .byWord :: (ts ++ us)) (key :: keys)
  | noPaging : Derives .paging [] (0, 0)
  | skip {ts : List Token} {n : UInt64} (count : Derives .count ts n) :
      Derives .paging (.keyword .skip :: ts) (n, 0)
  | limit {ts : List Token} {n : UInt64} (count : Derives .count ts n) :
      Derives .paging (.keyword .limit :: ts) (0, n)
  | skipLimit {ts us : List Token} {m n : UInt64} (first : Derives .count ts m)
      (second : Derives .count us n) :
      Derives .paging (.keyword .skip :: (ts ++ .keyword .limit :: us)) (m, n)
  | limitSkip {ts us : List Token} {m n : UInt64} (first : Derives .count ts n)
      (second : Derives .count us m) :
      Derives .paging (.keyword .limit :: (ts ++ .keyword .skip :: us)) (m, n)
  | select {ps ts us vs : List Token} {entity : String} {fields : List String}
      {condition : Option Condition} {sorts : List SortKey} {skip limit : UInt64}
      (projection : Derives .fields ps fields) (filter : Derives .filter ts condition)
      (ordering : Derives .ordering us sorts) (paging : Derives .paging vs (skip, limit)) :
      Derives .select
        (.keyword .select :: (ps ++ .keyword .fromWord :: .name entity :: (ts ++ (us ++ vs))))
        ⟨entity, fields, condition, sorts, skip, limit⟩

  | lastKey {ts : List Token} {v : Operand} (value : Derives .value ts v) :
      Derives .keys ts [v]
  | key {ts us : List Token} {v : Operand} {vs : List Operand} (value : Derives .value ts v)
      (others : Derives .keys us vs) : Derives .keys (ts ++ us) (v :: vs)
  | commaKey {ts us : List Token} {v : Operand} {vs : List Operand} (value : Derives .value ts v)
      (others : Derives .keys us vs) :
      Derives .keys (ts ++ .symbol .comma :: us) (v :: vs)
  | assignment {field : String} {ts : List Token} {v : Operand} (value : Derives .value ts v) :
      Derives .assignment (.name field :: .symbol .equal :: ts) (.compare field .equal v)
  | assignments {ts us : List Token} {c : Condition} {cs : List Condition}
      (first : Derives .assignment ts c) (others : Derives (.more .assignment) us cs) :
      Derives .payload (.symbol .leftParen :: (ts ++ (us ++ [.symbol .rightParen])))
        (.assignments (c :: cs))
  | payloadObject {ts : List Token} {j : Json} (object : Derives .object ts j) :
      Derives .payload ts (.document (.document j))
  | payloadArray {ts : List Token} {j : Json} (array : Derives .array ts j) :
      Derives .payload ts (.document (.document j))
  | payloadParameter {p : String} : Derives .payload [.parameter p] (.document (.parameter p))
  | lifetime {ts : List Token} {n : UInt64} {word : String} {unit : TimeUnit} {t : Lifetime}
      (amount : Derives .count ts n) (hunit : TimeUnit.ofWord? word = some unit)
      (ht : Lifetime.ofAmount? n.toNat unit = some t) :
      Derives .lifetime (ts ++ [.name word]) t

  | bodySelect {ts : List Token} {s : Select} (select : Derives .select ts s) :
      Derives .body ts (.select s)
  | insert {into : Bool} {ts : List Token} {entity : String} {p : Payload}
      (payload : Derives .payload ts p) :
      Derives .body
        (.keyword .insert :: ((if into then [.keyword .into] else []) ++ .name entity :: ts))
        (.insert ⟨entity, p, none⟩)
  | insertFor {into : Bool} {ts us : List Token} {entity : String} {p : Payload} {t : Lifetime}
      (payload : Derives .payload ts p) (ttl : Derives .lifetime us t) :
      Derives .body
        (.keyword .insert ::
          ((if into then [.keyword .into] else []) ++ .name entity :: (ts ++ us)))
        (.insert ⟨entity, p, some t⟩)
  | update {ts : List Token} {entity : String} {p : Payload} (payload : Derives .payload ts p) :
      Derives .body (.keyword .update :: .name entity :: ts) (.update ⟨entity, p⟩)
  | delete {ps ts : List Token} {entity : String} {fields : List String}
      {condition : Option Condition} (projection : Derives .fields ps fields)
      (filter : Derives .filter ts condition) :
      Derives .body
        (.keyword .delete :: (ps ++ .keyword .fromWord :: .name entity :: ts))
        (.delete ⟨entity, fields, condition⟩)
  | get {ts : List Token} {ks : List Operand} (keys : Derives .keys ts ks) :
      Derives .body (.keyword .get :: ts) (.get ks)
  | del {ts : List Token} {ks : List Operand} (keys : Derives .keys ts ks) :
      Derives .body (.keyword .del :: ts) (.del ks)
  | put {ts us : List Token} {k v : Operand} (key : Derives .value ts k)
      (value : Derives .value us v) :
      Derives .body
        (.keyword .put :: .symbol .leftBrace ::
          (ts ++ .symbol .comma :: (us ++ [.symbol .rightBrace])))
        (.put ⟨k, v, none⟩)
  | putFor {ts us vs : List Token} {k v : Operand} {t : Lifetime} (key : Derives .value ts k)
      (value : Derives .value us v) (ttl : Derives .lifetime vs t) :
      Derives .body
        (.keyword .put :: .symbol .leftBrace ::
          (ts ++ .symbol .comma :: (us ++ .symbol .comma :: (vs ++ [.symbol .rightBrace]))))
        (.put ⟨k, v, some t⟩)
  | statement {ts : List Token} {s : Statement} (body : Derives .body ts s) :
      Derives .statement ts s
  | terminated {ts : List Token} {s : Statement} (body : Derives .body ts s) :
      Derives .statement (ts ++ [.symbol .semicolon]) s

end Derives

/-- The derivations of the grammar: without parentheses only a parameter, a select or a list with
members may follow `in`. -/
abbrev Produces (n : Nonterminal) (ts : List Token) (a : n.Result) : Prop :=
  Derives (fun v => v.isChoices = true) n ts a

theorem toInt_eq_toNat {n : Int64} (h : 0 ≤ n) : n.toInt = n.toUInt64.toNat := by
  rw [Int64.toNat_toUInt64_of_le h]
  exact (Int.toNat_of_nonneg (Int64.le_iff_toInt_le.1 h)).symm

theorem Further.produces {n : Nonterminal} {ts : List Token} {as : List n.Result}
    (h : Further (.symbol .comma) (Produces n) ts as) : Produces (.more n) ts as := by
  induction h with
  | nil => exact .moreNil
  | cons item _ ih => exact .moreCons item ih

theorem Linked.produces {ts : List Token} {cs : List (Connective × Condition)}
    (h : Linked (Produces .unary) ts cs) : Produces .links ts cs := by
  induction h with
  | nil => exact .linksNil
  | cons part _ ih => exact .linksCons part ih

theorem IsDisjunction.produces {ts : List Token} {c : Condition}
    (h : IsDisjunction (Produces .unary) ts c) : Produces .condition ts c := by
  obtain ⟨us, vs, d, rest, rfl, hd, hrest, rfl⟩ := h.exists_linked
  exact .condition hd hrest.produces

end Grammar

end StoreQuery

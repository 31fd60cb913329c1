import StoreQuery.Proofs.Grammar.Derivation
import StoreQuery.Proofs.Token.Whole

/-! # The data of a text

The data of a statement are its names, values, parameters, documents, counts and lifetimes, in the
order in which the text has them. Each of them is shown by the tokens of its own place: a number by
the integer that the digits denote, or by the opposite integer after a minus that stands apart.
-/

namespace StoreQuery

open Text

/-- A token that stands for a piece of data: characters that denote an integer stand for that
integer, every other token for itself. -/
inductive Mark where
  | whole (z : Int)
  | leaf (t : Token)
  deriving DecidableEq

/-- The piece of data that a token stands for if it is no whole number. Operators, delimiters and
most keywords stand for none. -/
def Token.leaf? : Token → Option Mark
  | float x => some (.leaf (.float x))
  | text s => some (.leaf (.text s))
  | name s => some (.leaf (.name s))
  | parameter s => some (.leaf (.parameter s))
  | symbol .minus => some (.leaf (.symbol .minus))
  | keyword k =>
    if k ∈ [.true, .false, .null, .skip, .limit] then some (.leaf (.keyword k)) else none
  | _ => none

/-- The mark of a lexeme. Whole numbers are read off the text and not off the token. -/
def Lexeme.mark? (text : List Char) (l : Lexeme) : Option Mark :=
  match whole? (l.span.text text) with
  | some z => some (.whole z)
  | none => l.token.leaf?

def marks (text : String) : List Mark :=
  (Lexeme.scan text).filterMap (Lexeme.mark? text.toList)

inductive InTurn {α : Type} (R : α → List Mark → Prop) : List α → List Mark → Prop where
  | nil : InTurn R [] []
  | cons {a : α} {as : List α} {ms ns : List Mark} (h : R a ms) (hs : InTurn R as ns) :
      InTurn R (a :: as) (ms ++ ns)

inductive Json.Num.Shown : Json.Num → List Mark → Prop where
  | whole {n : Json.Integer} : Shown (.integer n) [.whole n.val]
  | minusWhole {n : Json.Integer} :
      Shown (.integer n) [.leaf (.symbol .minus), .whole (-n.val)]
  | float {x : Number.Binary64.Finite} : Shown (.float x) [.leaf (.float x)]
  | minusFloat {x : Number.Binary64.Finite} :
      Shown (.float x) [.leaf (.symbol .minus), .leaf (.float x.neg)]

mutual

/-- How marks show a document. The members of an object are shown as the text gives them, a later
one taking the place of an earlier one with its key. -/
inductive Json.Shown : Json → List Mark → Prop where
  | null : Shown .null [.leaf (.keyword .null)]
  | true : Shown (.bool .true) [.leaf (.keyword .true)]
  | false : Shown (.bool .false) [.leaf (.keyword .false)]
  | number {k : Json.Num} {ms : List Mark} (h : k.Shown ms) : Shown (.number k) ms
  | text {s : String} : Shown (.text s) [.leaf (.text s)]
  | array {items : List Json} {ms : List Mark} (h : InTurn Json.Shown items ms) :
      Shown (.array items) ms
  | object {members : List (String × Json)} {ms : List Mark}
      (h : InTurn Json.MemberShown members ms) : Shown (.ofMembers members) ms

inductive Json.MemberShown : String × Json → List Mark → Prop where
  | member {key : String} {j : Json} {ms : List Mark} (h : j.Shown ms) :
      MemberShown (key, j) (.leaf (.text key) :: ms)

end

def Value.number? : Value → Option Json.Num
  | int n => some (.integer (.ofInt64 n))
  | float (.finite x) => some (.float x)
  | _ => none

inductive Datum where
  | name (s : String)
  | value (v : Value)
  | parameter (s : String)
  | document (j : Json)
  | paging (skip limit : UInt64)
  | lifetime (t : Lifetime)

/-- How marks show a piece of data. A skip and a limit that are 0 need not be shown. -/
inductive Datum.Shown : Datum → List Mark → Prop where
  | name {s : String} : Shown (.name s) [.leaf (.name s)]
  | null : Shown (.value .null) [.leaf (.keyword .null)]
  | true : Shown (.value (.bool .true)) [.leaf (.keyword .true)]
  | false : Shown (.value (.bool .false)) [.leaf (.keyword .false)]
  | text {s : String} : Shown (.value (.text s)) [.leaf (.text s)]
  | number {v : Value} {k : Json.Num} {ms : List Mark} (hv : v.number? = some k)
      (h : k.Shown ms) : Shown (.value v) ms
  | parameter {s : String} : Shown (.parameter s) [.leaf (.parameter s)]
  | document {j : Json} {ms : List Mark} (h : j.Shown ms) : Shown (.document j) ms
  | noPaging : Shown (.paging 0 0) []
  | skip {m : UInt64} : Shown (.paging m 0) [.leaf (.keyword .skip), .whole m.toNat]
  | limit {n : UInt64} : Shown (.paging 0 n) [.leaf (.keyword .limit), .whole n.toNat]
  | skipLimit {m n : UInt64} : Shown (.paging m n)
      [.leaf (.keyword .skip), .whole m.toNat, .leaf (.keyword .limit), .whole n.toNat]
  | limitSkip {m n : UInt64} : Shown (.paging m n)
      [.leaf (.keyword .limit), .whole n.toNat, .leaf (.keyword .skip), .whole m.toNat]
  | lifetime {t : Lifetime} {n : UInt64} {word : String} {unit : TimeUnit}
      (hunit : TimeUnit.ofWord? word = some unit) (ht : t.inNanos = n.toNat * unit.inNanos) :
      Shown (.lifetime t) [.whole n.toNat, .leaf (.name word)]

mutual

/-- The data of an operand, in their order. -/
def Operand.data : Operand → List Datum
  | .literal v => [.value v]
  | .parameter n => [.parameter n]
  | .document j => [.document j]
  | .list items => Operand.dataOfItems items
  | .nested s => s.data

def Operand.dataOfItems : List Operand → List Datum
  | [] => []
  | x :: xs => x.data ++ Operand.dataOfItems xs

def Condition.data : Condition → List Datum
  | .compare n _ v => .name n :: v.data
  | .within n v => .name n :: v.data
  | .between n low high => .name n :: (low.data ++ high.data)
  | .all cs | .any cs => Condition.dataOfItems cs
  | .not c => c.data

def Condition.dataOfItems : List Condition → List Datum
  | [] => []
  | c :: cs => c.data ++ Condition.dataOfItems cs

def Condition.dataOfClause : Option Condition → List Datum
  | none => []
  | some c => c.data

def Select.data : Select → List Datum
  | ⟨entity, fields, condition, sorts, skip, limit⟩ =>
    fields.map .name ++ .name entity :: (Condition.dataOfClause condition ++
      (sorts.map (.name ·.name) ++ [.paging skip limit]))

end

def Payload.data : Payload → List Datum
  | assignments conditions => Condition.dataOfItems conditions
  | document v => v.data

def Statement.data : Statement → List Datum
  | select s => s.data
  | insert s => .name s.entity :: (s.payload.data ++ s.ttl.toList.map .lifetime)
  | update s => .name s.entity :: s.payload.data
  | delete s => s.fields.map .name ++ .name s.entity :: Condition.dataOfClause s.condition
  | get keys | del keys => Operand.dataOfItems keys
  | put s => s.key.data ++ (s.value.data ++ s.ttl.toList.map .lifetime)

theorem Operand.dataOfItems_eq {xs : List Operand} :
    Operand.dataOfItems xs = xs.flatMap Operand.data := by
  induction xs with
  | nil => rfl
  | cons x xs ih => rw [Operand.dataOfItems, ih, List.flatMap_cons]

theorem Condition.dataOfItems_eq {cs : List Condition} :
    Condition.dataOfItems cs = cs.flatMap Condition.data := by
  induction cs with
  | nil => rfl
  | cons c cs ih => rw [Condition.dataOfItems, ih, List.flatMap_cons]

theorem Condition.data_join {c : Condition} {cs : List (Connective × Condition)} :
    (join c cs).data = c.data ++ cs.flatMap fun d => d.2.data :=
  collect_join (fun _ => dataOfItems_eq) (fun _ => dataOfItems_eq) c cs

namespace InTurn

variable {α β : Type} {R : α → List Mark → Prop} {S : β → List Mark → Prop} {a : α}
  {as bs : List α} {ms ns : List Mark}

theorem single (h : R a ms) : InTurn R [a] ms := by
  rw [← List.append_nil ms]
  exact .cons h .nil

theorem append (h : InTurn R as ms) (h' : InTurn R bs ns) : InTurn R (as ++ bs) (ms ++ ns) := by
  induction h with
  | nil => exact h'
  | cons h _ ih =>
    rw [List.cons_append, List.append_assoc]
    exact .cons h ih

theorem flatMap {f : α → List β} (h : InTurn (fun a => InTurn S (f a)) as ms) :
    InTurn S (as.flatMap f) ms := by
  induction h with
  | nil => exact .nil
  | cons h _ ih => exact h.append ih

theorem map {f : α → β} (h : InTurn (fun a => S (f a)) as ms) : InTurn S (as.map f) ms := by
  induction h with
  | nil => exact .nil
  | cons h _ ih => exact .cons h ih

end InTurn

theorem Json.eq_of_shown_null {ms : List Mark} (h : Json.null.Shown ms) :
    ms = [.leaf (.keyword .null)] := by
  generalize hj : Json.null = j at h
  cases h with
  | null => rfl
  | true | false | number | text | array | object => cases hj

theorem Value.toJson_of_number? {v : Value} {k : Json.Num} (h : v.number? = some k) :
    v.toJson = .number k := by
  unfold number? at h
  split at h
  · cases h
    rfl
  · cases h
    rfl
  · cases h

def Token.mark? : Token → Option Mark
  | integer n => some (.whole n.toInt)
  | t => t.leaf?

namespace Grammar

def marksOf (ts : List Token) : List Mark :=
  ts.filterMap Token.mark?

theorem marksOf_nil : marksOf [] = [] := rfl

theorem marksOf_append {ts us : List Token} : marksOf (ts ++ us) = marksOf ts ++ marksOf us :=
  List.filterMap_append

theorem marksOf_cons_none {t : Token} {ts : List Token} (h : t.mark? = none) :
    marksOf (t :: ts) = marksOf ts :=
  List.filterMap_cons_none h

theorem marksOf_cons_some {t : Token} {ts : List Token} {m : Mark} (h : t.mark? = some m) :
    marksOf (t :: ts) = m :: marksOf ts :=
  List.filterMap_cons_some h

theorem marksOf_between {t u : Token} {ts : List Token} (ht : t.mark? = none)
    (hu : u.mark? = none) : marksOf (t :: (ts ++ [u])) = marksOf ts := by
  rw [marksOf_cons_none ht, marksOf_append, marksOf_cons_none hu]
  exact List.append_nil _

/-- How marks show the result of a nonterminal. -/
def Nonterminal.Shows : (n : Nonterminal) → n.Result → List Mark → Prop
  | .number, v => fun ms => ∃ k, v.number? = some k ∧ k.Shown ms
  | .count, n => fun ms => ms = [.whole n.toNat]
  | .name, s => Datum.Shown (.name s)
  | .member, m => Json.MemberShown m
  | .object, j | .array, j | .document, j => j.Shown
  | .value, v | .choices, v => InTurn Datum.Shown v.data
  | .predicate field, c => fun ms => InTurn Datum.Shown c.data (.leaf (.name field) :: ms)
  | .unary, c | .condition, c | .assignment, c => InTurn Datum.Shown c.data
  | .links, cs => InTurn Datum.Shown (cs.flatMap fun c => c.2.data)
  | .filter, c => InTurn Datum.Shown (Condition.dataOfClause c)
  | .fields, names => InTurn Datum.Shown (names.map .name)
  | .sortKey, s => Datum.Shown (.name s.name)
  | .ordering, sorts => InTurn Datum.Shown (sorts.map (.name ·.name))
  | .paging, (skip, limit) => Datum.Shown (.paging skip limit)
  | .select, s => InTurn Datum.Shown s.data
  | .keys, ks => InTurn Datum.Shown (Operand.dataOfItems ks)
  | .payload, p => InTurn Datum.Shown p.data
  | .lifetime, t => Datum.Shown (.lifetime t)
  | .body, s | .statement, s => InTurn Datum.Shown s.data
  | .more n, as => InTurn n.Shows as

theorem mark?_of_comparison? {t : Token} {c : Comparison} (h : comparison? t = some c) :
    t.mark? = none := by
  unfold comparison? at h
  split at h <;> first | rfl | cases h

theorem mark?_token (o : Connective) : o.token.mark? = none := by
  cases o <;> rfl

theorem marksOf_into (into : Bool) :
    marksOf (if into then [.keyword .into] else []) = [] := by
  cases into <;> rfl

theorem toInt_neg_of_ne {n : Int64} (h : n ≠ .minValue) : (-n).toInt = -n.toInt := by
  have hlower := n.le_toInt
  have hupper := n.toInt_lt
  have hne : n.toInt ≠ -2 ^ 63 := fun heq =>
    h (Int64.toInt_inj.1 (heq.trans Int64.toInt_minValue.symm))
  rw [Int64.toInt_neg, Int.bmod_eq_of_le] <;> omega

variable {ts : List Token} {data : List Datum} {ms : List Mark}

theorem shown_minus {n : Int64} (h : n ≠ .minValue) :
    (Json.Num.integer (.ofInt64 (-n))).Shown (marksOf [.symbol .minus, .integer n]) := by
  have hvalue : n.toInt = -(Json.Integer.ofInt64 (-n)).val := by
    show n.toInt = -(-n).toInt
    rw [toInt_neg_of_ne h, Int.neg_neg]
  have hmarks : marksOf [.symbol .minus, .integer n] =
      [.leaf (.symbol .minus), .whole (-(Json.Integer.ofInt64 (-n)).val)] := by
    rw [← hvalue]
    rfl
  rw [hmarks]
  exact .minusWhole

theorem shown_minusFloat (x : Number.Binary64.Finite) :
    (Json.Num.float x.neg).Shown (marksOf [.symbol .minus, .float x]) := by
  have hmarks : marksOf [.symbol .minus, .float x] =
      [.leaf (.symbol .minus), .leaf (.float x.neg.neg)] := by
    rw [x.neg_neg]
    rfl
  rw [hmarks]
  exact .minusFloat

theorem shown_toJson {v : Value} (h : Nonterminal.number.Shows v ms) : v.toJson.Shown ms := by
  obtain ⟨k, hv, hk⟩ := h
  rw [Value.toJson_of_number? hv]
  exact .number hk

theorem marksOf_of_count {n : UInt64} (h : Nonterminal.count.Shows n (marksOf ts)) :
    marksOf ts = [.whole n.toNat] :=
  h

theorem shown_name {s : String} (h : InTurn Datum.Shown data ms) :
    InTurn Datum.Shown (.name s :: data) (.leaf (.name s) :: ms) :=
  .cons .name h

theorem shown_names {names : List String} (h : (Nonterminal.more .name).Shows names ms) :
    InTurn Datum.Shown (names.map .name) ms :=
  InTurn.map (S := Datum.Shown) h

theorem shown_sorts {sorts : List SortKey} (h : (Nonterminal.more .sortKey).Shows sorts ms) :
    InTurn Datum.Shown (sorts.map (.name ·.name)) ms :=
  InTurn.map (S := Datum.Shown) h

theorem shown_items {xs : List Operand} (h : (Nonterminal.more .value).Shows xs ms) :
    InTurn Datum.Shown (Operand.dataOfItems xs) ms := by
  rw [Operand.dataOfItems_eq]
  exact InTurn.flatMap h

theorem shown_assignments {cs : List Condition}
    (h : (Nonterminal.more .assignment).Shows cs ms) :
    InTurn Datum.Shown (Condition.dataOfItems cs) ms := by
  rw [Condition.dataOfItems_eq]
  exact InTurn.flatMap h

/-- What is derived from tokens is shown by their marks. -/
theorem shows_of_produces {n : Nonterminal} {a : n.Result} (h : Produces n ts a) :
    n.Shows a (marksOf ts) := by
  induction h with
  | integer => exact ⟨_, rfl, .whole⟩
  | float => exact ⟨_, rfl, .float⟩
  | minusInteger hn => exact ⟨_, rfl, shown_minus hn⟩
  | minusFloat => exact ⟨_, rfl, shown_minusFloat _⟩
  | count hn => exact congrArg (fun z => [Mark.whole z]) (toInt_eq_toNat hn)
  | name | sortKey | ascending | descending => exact .name
  | moreNil | linksNil | noFilter | noFields | star | noOrdering => exact .nil
  | moreCons _ _ ih ihs =>
    rw [marksOf_cons_none rfl, marksOf_append]
    exact .cons ih ihs
  | member _ ih => exact .member ih
  | emptyObject => exact .object .nil
  | object _ _ ih ihs =>
    rw [← List.append_assoc, marksOf_between rfl rfl, marksOf_append]
    exact .object (.cons ih ihs)
  | emptyArray => exact .array .nil
  | array _ _ ih ihs =>
    rw [← List.append_assoc, marksOf_between rfl rfl, marksOf_append]
    exact .array (.cons ih ihs)
  | documentText => exact .text
  | documentNumber _ ih => exact shown_toJson ih
  | documentTrue => exact .true
  | documentFalse => exact .false
  | documentNull => exact .null
  | valueText => exact .single .text
  | valueNumber _ ih =>
    obtain ⟨k, hv, hk⟩ := ih
    exact .single (.number hv hk)
  | valueTrue => exact .single .true
  | valueFalse => exact .single .false
  | valueNull => exact .single .null
  | valueParameter | payloadParameter => exact .single .parameter
  | valueObject _ ih | valueArray _ ih | payloadObject _ ih | payloadArray _ ih =>
    exact .single (.document ih)
  | documentObject _ ih | documentArray _ ih | choicesSingle _ _ ih | not _ ih | test _ ih
  | filter _ ih | bodySelect _ ih | get _ ih | del _ ih | statement _ ih => exact ih
  | valueList _ _ ih ihs | choicesList _ _ ih ihs =>
    rw [← List.append_assoc, marksOf_between rfl rfl, marksOf_append]
    exact ih.append (shown_items ihs)
  | valueSelect _ ih | parens _ ih =>
    rw [marksOf_between rfl rfl]
    exact ih
  | terminated _ ih =>
    rw [marksOf_append, marksOf_cons_none rfl, marksOf_nil, List.append_nil]
    exact ih
  | compare h _ ih =>
    rw [marksOf_cons_none (mark?_of_comparison? h)]
    exact shown_name ih
  | between _ _ ih ihs =>
    rw [marksOf_cons_none rfl, marksOf_append, marksOf_cons_none rfl]
    exact shown_name (ih.append ihs)
  | within _ ih | assignment _ ih | update _ ih => exact shown_name ih
  | linksCons _ _ ih ihs =>
    rw [marksOf_cons_none (mark?_token _), marksOf_append]
    exact ih.append ihs
  | condition _ _ ih ihs =>
    rw [marksOf_append, Nonterminal.Shows, Condition.data_join]
    exact ih.append ihs
  | fields _ ih => exact shown_name (shown_names ih)
  | ordering _ _ ih ihs =>
    rw [marksOf_cons_none rfl, marksOf_cons_none rfl, marksOf_append]
    exact .cons ih (shown_sorts ihs)
  | noPaging => exact .noPaging
  | skip _ ih =>
    rw [marksOf_cons_some rfl, marksOf_of_count ih]
    exact .skip
  | limit _ ih =>
    rw [marksOf_cons_some rfl, marksOf_of_count ih]
    exact .limit
  | skipLimit _ _ ih ihs =>
    rw [marksOf_cons_some rfl, marksOf_append, marksOf_of_count ih, marksOf_cons_some rfl,
      marksOf_of_count ihs]
    exact .skipLimit
  | limitSkip _ _ ih ihs =>
    rw [marksOf_cons_some rfl, marksOf_append, marksOf_of_count ih, marksOf_cons_some rfl,
      marksOf_of_count ihs]
    exact .limitSkip
  | select _ _ _ _ ihp iht ihu ihv =>
    rw [marksOf_cons_none rfl, marksOf_append, marksOf_cons_none rfl, marksOf_cons_some rfl,
      marksOf_append, marksOf_append]
    exact ihp.append (shown_name (iht.append (ihu.append (.single ihv))))
  | lastKey _ ih =>
    rw [Nonterminal.Shows, Operand.dataOfItems, Operand.dataOfItems, List.append_nil]
    exact ih
  | key _ _ ih ihs =>
    rw [marksOf_append]
    exact ih.append ihs
  | commaKey _ _ ih ihs =>
    rw [marksOf_append, marksOf_cons_none rfl]
    exact ih.append ihs
  | assignments _ _ ih ihs =>
    rw [← List.append_assoc, marksOf_between rfl rfl, marksOf_append]
    exact ih.append (shown_assignments ihs)
  | lifetime _ hunit ht ih =>
    rw [marksOf_append, marksOf_of_count ih]
    exact .lifetime hunit (Lifetime.inNanos_ofNanos? ht)
  | insert _ ih =>
    rw [marksOf_cons_none rfl, marksOf_append, marksOf_into]
    show InTurn Datum.Shown (.name _ :: (_ ++ [])) _
    rw [List.append_nil]
    exact shown_name ih
  | insertFor _ _ ih ihs =>
    rw [marksOf_cons_none rfl, marksOf_append, marksOf_into, marksOf_cons_some rfl, marksOf_append]
    exact shown_name (ih.append (.single ihs))
  | delete _ _ ih ihs =>
    rw [marksOf_cons_none rfl, marksOf_append, marksOf_cons_none rfl]
    exact ih.append (shown_name ihs)
  | put _ _ ih ihs =>
    rw [marksOf_cons_none rfl, marksOf_cons_none rfl, marksOf_append, marksOf_cons_none rfl,
      marksOf_append]
    exact ih.append (ihs.append .nil)
  | putFor _ _ _ ih ihs iht =>
    rw [marksOf_cons_none rfl, marksOf_cons_none rfl, marksOf_append, marksOf_cons_none rfl,
      marksOf_append, marksOf_cons_none rfl, marksOf_append, marksOf_cons_none rfl, marksOf_nil,
      List.append_nil]
    exact ih.append (ihs.append (.single iht))

end Grammar

end StoreQuery

import StoreQuery.Proofs.Query.ChainReading
import StoreQuery.Proofs.Query.Native
import StoreQuery.Proofs.Query.Parentheses

/-! # Literals in code and in text

A document becomes an operand in two ways: in code by its shape, and in text by the rule for values,
which reads its compact text. Both give the same operand, but not for a list: code makes operands of
its items, while text keeps it as the document that it is, and the two are never equal.
-/

namespace StoreQuery

open Grammar

namespace Json

def IsArray : Json → Prop
  | array _ => True
  | _ => False

mutual

theorem same_self : ∀ j : Json, j.same j = true
  | null => rfl
  | bool b => beq_self_eq_true b
  | text s => beq_self_eq_true s
  | number (.integer n) => beq_self_eq_true n
  | number (.float x) => beq_self_eq_true x.scaled
  | array js => sameItems_self js
  | object ms => sameMembers_self ms

theorem sameItems_self : ∀ js : List Json, sameItems js js = true
  | [] => rfl
  | j :: js => Bool.and_eq_true_iff.2 ⟨same_self j, sameItems_self js⟩

theorem sameMembers_self : ∀ ms : List (String × Json), sameMembers ms ms = true
  | [] => rfl
  | (key, j) :: ms => by
    rw [sameMembers, same_self j, sameMembers_self ms, beq_self_eq_true]
    rfl

end

end Json

namespace Value

mutual

theorem same_self : ∀ {v : Value}, v.isFinite = true → v.same v = true
  | .null, _ => rfl
  | .bool b, _ => beq_self_eq_true b
  | .int n, _ => beq_self_eq_true n
  | .float (.finite x), _ => by simp [same, Number.Binary64.same, Number.Binary64.compare?]
  | .text s, _ => beq_self_eq_true s
  | .json j, _ => j.same_self
  | .array _, h => sameItems_self h

theorem sameItems_self : ∀ {vs : List Value}, areFinite vs = true → sameItems vs vs = true
  | [], _ => rfl
  | _ :: _, h =>
    have ⟨hv, hvs⟩ := Bool.and_eq_true_iff.1 h
    Bool.and_eq_true_iff.2 ⟨same_self hv, sameItems_self hvs⟩

end

end Value

namespace Operand

section Documents

variable {j : Json} {js : List Json}

mutual

theorem isFinite_ofJson : ∀ j : Json, (ofJson j).isFinite = true
  | .null | .bool _ | .text _ | .object _ => rfl
  | .number n => Value.isFinite_ofJson (.number n)
  | .array js => areFinite_ofJsonItems js

theorem areFinite_ofJsonItems : ∀ js : List Json, areFinite (ofJsonItems js) = true
  | [] => rfl
  | j :: js => Bool.and_eq_true_iff.2 ⟨isFinite_ofJson j, areFinite_ofJsonItems js⟩

end

mutual

theorem same_ofJson : ∀ j : Json, (ofJson j).same (ofJson j) = true
  | .null | .bool _ | .text _ => by
    rw [ofJson, same]
    exact Value.same_self rfl
  | .number n => by
    rw [ofJson, same]
    exact Value.same_self (Value.isFinite_ofJson (.number n))
  | .object ms => by
    rw [ofJson, same]
    exact Json.same_self (.object ms)
  | .array js => by
    rw [ofJson, same]
    exact sameItems_ofJsonItems js

theorem sameItems_ofJsonItems : ∀ js : List Json,
    sameItems (ofJsonItems js) (ofJsonItems js) = true
  | [] => by rw [ofJsonItems, sameItems]
  | j :: js => by
    rw [ofJsonItems, sameItems, same_ofJson j, sameItems_ofJsonItems js]
    rfl

end

theorem written_eq_ofJson (h : ¬j.IsArray) : written j = ofJson j := by
  cases j with
  | array => exact absurd trivial h
  | _ => rfl

theorem same_written_iff : (written j).same (ofJson j) = true ↔ ¬j.IsArray := by
  constructor
  · intro h
    cases j with
    | array => simp [written, ofJson, same] at h
    | _ => exact not_false
  · intro h
    rw [written_eq_ofJson h]
    exact same_ofJson j

theorem sameItems_written_iff :
    sameItems (js.map written) (js.map ofJson) = true ↔ ∀ j ∈ js, ¬j.IsArray := by
  induction js with
  | nil => simp [sameItems]
  | cons j js ih =>
    rw [List.map_cons, List.map_cons, sameItems, Bool.and_eq_true, same_written_iff, ih,
      List.forall_mem_cons]

theorem areFinite_map_ofJson : areFinite (js.map ofJson) = true := by
  rw [← ofJsonItems_eq_map]
  exact areFinite_ofJsonItems js

end Documents

end Operand

inductive Criterion where
  | compare (comparison : Comparison) (j : Json)
  | between (low high : Json)
  | within (first : Json) (others : List Json)

namespace Criterion

def documents : Criterion → List Json
  | compare _ j => [j]
  | between low high => [low, high]
  | within first others => first :: others

def predicate : Criterion → Predicate
  | compare c j => .compare c (.ofJson j)
  | between low high => .between (.ofJson low) (.ofJson high)
  | within first others => .withinList ((first :: others).map .ofJson)

/-- The text of a test of a field, with the compact texts of the documents. -/
def text (field : String) : Criterion → String
  | compare c j => Name.render field ++ (" " ++ c.render ++ " ") ++ j.compact
  | between low high => Name.render field ++ " between " ++ low.compact ++ " and " ++ high.compact
  | within first others =>
    Name.render field ++ " in " ++
      ("(" ++ ", ".intercalate ((first :: others).map Json.compact) ++ ")")

/-- The condition on a field, where documents become operands in some way. -/
def condition (operand : Json → Operand) (field : String) : Criterion → Condition
  | compare c j => .compare field c (operand j)
  | between low high => .between field (operand low) (operand high)
  | within first others => .within field (.list ((first :: others).map operand))

variable {q : Criterion} {field : String}

theorem condition_congr {f g : Json → Operand} (h : ∀ j ∈ q.documents, f j = g j) :
    q.condition f field = q.condition g field := by
  cases q with
  | compare c j =>
    rw [condition, condition, h j List.mem_cons_self]
  | between low high =>
    rw [condition, condition, h low List.mem_cons_self,
      h high (List.mem_cons_of_mem _ List.mem_cons_self)]
  | within first others =>
    have heq : (first :: others).map f = (first :: others).map g := List.map_congr_left h
    rw [condition, condition, heq]

/-- The conditions of text and of code are equal if none of the documents is a list. -/
theorem same_condition_iff :
    (q.condition .written field).same (q.condition .ofJson field) = true ↔
      ∀ j ∈ q.documents, ¬j.IsArray := by
  cases q with
  | compare c j =>
    simp [condition, Condition.same, documents, Operand.same_written_iff]
  | between low high =>
    simp [condition, Condition.same, documents, Operand.same_written_iff]
  | within first others =>
    simp only [condition, Condition.same, Operand.same, beq_self_eq_true, Bool.true_and, documents]
    exact Operand.sameItems_written_iff

theorem predicate_condition :
    q.predicate.condition field = .ok (q.condition .ofJson field) := by
  cases q <;> rfl

theorem isFinite_condition : (q.condition .ofJson field).isFinite = true := by
  cases q with
  | compare c j => exact Operand.isFinite_ofJson j
  | between low high =>
    exact Bool.and_eq_true_iff.2 ⟨Operand.isFinite_ofJson low, Operand.isFinite_ofJson high⟩
  | within first others => exact Operand.areFinite_map_ofJson

theorem test_condition (hfield : field ≠ "") :
    (⟨field, false, q.predicate⟩ : Test).condition = .ok (q.condition .ofJson field) := by
  have hname : checkName .conditionField field = .ok () := checkName_eq_ok.2 hfield
  refine bind_eq_ok.2 ⟨(), hname, bind_eq_ok.2 ⟨_, predicate_condition, ?_⟩⟩
  rw [isFinite_condition]
  rfl

theorem spells_test {cs : List Char} {ts : List Token} {c : Condition} (hfield : field ≠ "")
    (hcs : Writes cs ts) (hstops : Token.stops cs = true) (hc : Produces (.predicate field) ts c) :
    Spells .condition ((Name.render field).toList ++ cs) c := by
  refine ⟨_, (Writes.name hfield).append hcs hstops, ?_⟩
  have hcondition := Derives.condition (.test hc) .linksNil
  rwa [List.append_nil] at hcondition

theorem spells (hfield : field ≠ "") (hq : ∀ j ∈ q.documents, j.Readable) :
    Spells .condition (q.text field).toList (q.condition .written field) := by
  cases q with
  | compare c j =>
    obtain ⟨ts, hts, hj⟩ := Spells.written (hq j List.mem_cons_self)
    obtain ⟨t, ht, hclose⟩ := Closes.comparison c
    have hwrites := hclose.append_writes hts
    simp only [text, String.toList_append, List.append_assoc] at hwrites ⊢
    exact spells_test hfield hwrites rfl (.compare ht hj)
  | between low high =>
    obtain ⟨ts, hts, hlow⟩ := Spells.written (hq low List.mem_cons_self)
    obtain ⟨us, hus, hhigh⟩ :=
      Spells.written (hq high (List.mem_cons_of_mem _ List.mem_cons_self))
    have hwrites := (Closes.spaced .between).append_writes
      (hts.append ((Closes.spaced .and).append_writes hus) rfl)
    simp only [text, String.toList_append, List.append_assoc]
    exact spells_test hfield hwrites rfl (.between hlow hhigh)
  | within first others =>
    have hvalue : ∀ j ∈ first :: others, Spells .value j.compact.toList (.written j) :=
      fun j hj => Spells.written (hq j hj)
    rw [List.forall_mem_cons] at hvalue
    obtain ⟨ts, us, hrow, hfirst, hothers⟩ := Spells.intercalate_map hvalue.2 hvalue.1
    have hwrites := (Closes.spaced .inWord).append_writes
      (hrow.between (l := .leftParen) (r := .rightParen) rfl rfl rfl)
    simp only [text, String.toList_append, List.append_assoc]
    exact spells_test hfield hwrites rfl (.within (.choicesList hfirst hothers))

end Criterion

namespace Host

variable {h : Host} {field : String}

/-- The chain of a host with one test. -/
def chain (field : String) (p : Predicate) : Host → Option Chain
  | select fields entity => Chain.select fields [.entity entity, .filter field, .predicate p]
  | delete fields entity => Chain.delete fields [.entity entity, .filter field, .predicate p]

theorem exists_chain {p : Predicate} {c : Condition} (hnamed : h.IsNamed)
    (hc : (⟨field, false, p⟩ : Test).condition = .ok c) :
    ∃ chain, h.chain field p = some chain ∧ chain.build = .ok (h.statement c) := by
  have hclause : Filter.condition? (some ⟨⟨field, false, p⟩, []⟩) = .ok (some c) :=
    bind_eq_ok.2 ⟨[(.and, c)], mapM_eq_ok.2 (.cons (bind_eq_ok.2 ⟨c, hc, rfl⟩) .nil), rfl⟩
  cases h with
  | select fields entity | delete fields entity =>
    exact ⟨_, rfl, bind_eq_ok.2 ⟨(), forM_checkName_eq_ok.2 hnamed.2,
      bind_eq_ok.2 ⟨(), checkName_eq_ok.2 hnamed.1, bind_eq_ok.2 ⟨_, hclause, rfl⟩⟩⟩⟩

theorem parse_spelled {text : String} {c : Condition} (hnamed : h.IsNamed)
    (hc : Spells .condition text.toList c) :
    (parseStatement (h.text text)).result = .ok (h.statement c) := by
  obtain ⟨hs, hbegins⟩ := exists_begins hnamed
  obtain ⟨ts, hts, hc⟩ := hc
  apply parseStatement_of_produces
  rw [hbegins.tokens_text, hts.tokens_eq]
  exact .statement (hbegins.produces hc)

end Host

namespace Grammar

theorem value_written {j : Json} {rest : List Char} {c : Cursor} {depth : Nat} (hj : j.Readable)
    (hrest : Token.stops rest = true) (hc : c.tokens = Lexeme.tokens (j.compact.toList ++ rest))
    (hdepth : 2 * (Lexeme.tokens j.compact.toList).length + 1 ≤ depth) :
    ∃ c', value depth c = .done (.written j) c' ∧ c'.tokens = Lexeme.tokens rest := by
  obtain ⟨ts, hts, hvalue⟩ := Spells.written hj
  rw [hts.tokens_eq] at hdepth
  rw [hts rest hrest] at hc
  exact (complete hvalue).1 depth _ hdepth c hc

end Grammar

/-- The compact text of a document whose integers are signed words is read as the operand that code
makes of the document, unless it is a list, which is read as something else. So a test by documents
is one condition in text and in code if and only if none of the documents is a list. -/
theorem literals_agree (j : Json) (q : Criterion) (host : Host) (field : String) :
    (j.Readable →
      (∀ (c : Cursor) (rest : List Char) (depth : Nat), Token.stops rest = true →
        c.tokens = Lexeme.tokens (j.compact.toList ++ rest) →
        2 * (Lexeme.tokens j.compact.toList).length + 1 ≤ depth →
          ∃ c', value depth c = .done (.written j) c' ∧ c'.tokens = Lexeme.tokens rest) ∧
      (¬j.IsArray → Operand.written j = .ofJson j) ∧
      ((Operand.written j).same (.ofJson j) = true ↔ ¬j.IsArray)) ∧
    (host.IsNamed → field ≠ "" → (∀ j ∈ q.documents, j.Readable) →
      let read := q.condition .written field
      let built := q.condition .ofJson field
      (parseStatement (host.text (q.text field))).result = .ok (host.statement read) ∧
      (∃ chain, host.chain field q.predicate = some chain ∧
        chain.build = .ok (host.statement built)) ∧
      ((∀ j ∈ q.documents, ¬j.IsArray) → read = built) ∧
      (read.same built = true ↔ ∀ j ∈ q.documents, ¬j.IsArray)) := by
  constructor
  · intro hj
    exact ⟨fun c rest depth hrest hc hdepth => value_written hj hrest hc hdepth,
      Operand.written_eq_ofJson, Operand.same_written_iff⟩
  · intro hnamed hfield hq read built
    refine ⟨Host.parse_spelled hnamed (q.spells hfield hq),
      Host.exists_chain hnamed (q.test_condition hfield), fun h => ?_, q.same_condition_iff⟩
    exact q.condition_congr fun j hj => Operand.written_eq_ofJson (h j hj)

theorem literals_agree_nested :
    let j : Json := .object [("k", .array [.ofInt64 .minValue, .null])]
    let zero := Number.Binary64.Finite.zero true
    let q := Criterion.within j [.text "@p", .ofFinite zero]
    let text := "\x7b\"k\":[-9223372036854775808,null]\x7d"
    let depth := 2 * (Lexeme.tokens text.toList).length + 1
    let read := Condition.within "not"
      (.list [.document j, .literal (.text "@p"), .literal (.float (.finite zero))])
    j.Readable ∧ j.compact = text ∧
      (∃ c, value depth (.start (Lexeme.scan (text ++ "-1"))) = .done (.document j) c ∧
        c.tokens = Lexeme.tokens ['-', '1']) ∧
      (parseStatement ("delete from T where `not` in (" ++ text ++ ", \"@p\", -0.0)")).result =
        .ok (.delete ⟨"T", [], some read⟩) ∧
      ∃ chain, (Host.delete [] "T").chain "not" q.predicate = some chain ∧
        chain.build = .ok (.delete ⟨"T", [], some read⟩) := by
  intro j zero q text depth read
  have hj : j.Readable := ⟨List.pairwise_singleton .., ⟨⟨_, rfl⟩, trivial, trivial⟩, trivial⟩
  have htext : j.compact = text := by decide +kernel
  have hq : ∀ k ∈ q.documents, k.Readable := by
    simp only [q, Criterion.documents, List.forall_mem_cons]
    exact ⟨hj, trivial, trivial, nofun⟩
  obtain ⟨hvalue, hcondition⟩ := literals_agree j q (.delete [] "T") "not"
  have hread := (hvalue hj).1
  obtain ⟨hparse, hbuild, -, -⟩ := hcondition ⟨by decide, nofun⟩ (by decide) hq
  have hquery : (Host.delete [] "T").text (q.text "not") =
      "delete from T where `not` in (" ++ text ++ ", \"@p\", -0.0)" := by
    decide +kernel
  rw [hquery] at hparse
  rw [htext] at hread
  have hstart : (Cursor.start (Lexeme.scan (text ++ "-1"))).tokens =
      Lexeme.tokens (text.toList ++ "-1".toList) := by
    rw [← String.toList_append]
    exact Lexeme.map_token_scan _
  exact ⟨hj, htext, hread _ _ depth rfl hstart (Nat.le_refl _), hparse, hbuild⟩

/-- Not every document is read as the operand that code makes of it. -/
theorem not_literals_agree :
    ¬∀ j : Json, j.Readable → ∃ c,
      (parseStatement ("select * from T where a = " ++ j.compact)).result =
          .ok (.select ⟨"T", [], some c, [], 0, 0⟩) ∧
        c.same (.compare "a" .equal (.ofJson j)) = true := by
  intro h
  let j := Json.array [.ofInt64 1, .ofInt64 2]
  have hj : j.Readable := ⟨⟨1, rfl⟩, ⟨2, rfl⟩, trivial⟩
  have htext : (Host.select [] "T").text ((Criterion.compare .equal j).text "a") =
      "select * from T where a = " ++ j.compact := by
    decide +kernel
  have hfield : "a" ≠ "" := by decide
  have hparse := Host.parse_spelled (h := .select [] "T") ⟨by decide, nofun⟩
    (Criterion.spells (q := .compare .equal j) hfield (List.forall_mem_singleton.2 hj))
  obtain ⟨c, hc, hsame⟩ := h j hj
  rw [htext, hc] at hparse
  cases hparse
  have hlist := Criterion.same_condition_iff.1 hsame
  exact hlist j List.mem_cons_self trivial

end StoreQuery

import StoreQuery.Proofs.Entity.Document
import StoreQuery.Proofs.Query.Canonical
import StoreQuery.Proofs.Query.Substitution
import StoreQuery.Proofs.Store.Recording

/-! # The two forms of a payload

What is written to a record may be given as assignments or as an object. Both forms of the same
members give a record with the same fields, the last value of a name winning. The values are the
same as well, except for an array: as an assignment it stays a document, and as a member of an
object it becomes an array of values.
-/

namespace StoreQuery

open Grammar

/-- The value that the text of a document gives in an assignment: what stands in braces or brackets
remains a document. -/
def Value.written : Json → Value
  | .object members => .json (.object members)
  | .array items => .json (.array items)
  | j => .ofJson j

theorem Operand.read_written (j : Json) : (Operand.written j).read = .ok (.written j) := by
  cases j <;> rfl

def Condition.assigning (m : String × Json) : Condition :=
  .compare m.1 .equal (.written m.2)

theorem Condition.assigns_assigning (m : String × Json) :
    (Condition.assigning m).Assigns (m.1, .written m.2) :=
  .intro (Operand.read_written m.2)

theorem Entity.ofAssignments_assigning (name : String) (ms : List (String × Json)) :
    ofAssignments name (ms.map Condition.assigning) =
      .ok (ofMembers Value.written (ofName name) ms) := by
  rw [ofAssignments_map fun m _ => Condition.assigns_assigning m, ofMembers_map]

theorem Payload.exists_record_object (name : String) (ms : List (String × Json)) :
    ∃ sorted, record name (.document (.document (.ofMembers ms))) =
        .ok (Entity.ofMembers Value.ofJson (.ofName name) sorted) ∧
      ∀ n, sorted.reverse.lookup n = ms.reverse.lookup n := by
  obtain ⟨sorted, hobject, hsorted, hlookup⟩ := Json.exists_members ms
  rw [hobject]
  exact ⟨sorted, rfl, fun n => (lookup_reverse hsorted.nodup_keys).trans (hlookup n)⟩

section Texts

variable {entity values : String} {m : String × Json} {ms : List (String × Json)} {x : Payload}

def assignmentText (m : String × Json) : String :=
  Name.quoted m.1 ++ " = " ++ m.2.compact

def assignmentsText (ms : List (String × Json)) : String :=
  "(" ++ ", ".intercalate (ms.map assignmentText) ++ ")"

/-- The text of a statement that writes to an entity, whose name stands between backticks. -/
def writeText (verb entity values : String) : String :=
  verb ++ Name.quoted entity ++ " " ++ values

theorem Spells.assigning (hm : m.1 ≠ "") (hj : m.2.Readable) :
    Spells .assignment (assignmentText m).toList (.assigning m) := by
  obtain ⟨ts, hts, hv⟩ := Spells.written hj
  have hequal : Closes " = ".toList [.symbol .equal] :=
    .append .blank (.append (.mark (s := .equal) rfl) .blank)
  refine ⟨_, ?_, .assignment hv⟩
  unfold assignmentText
  simp only [String.toList_append, List.append_assoc]
  exact (Writes.quotedName hm).append (hequal.append_writes hts) rfl

theorem Spells.assignments (hne : ms ≠ []) (hms : ∀ m ∈ ms, m.1 ≠ "" ∧ m.2.Readable) :
    Spells .payload (assignmentsText ms).toList (.assignments (ms.map .assigning)) := by
  obtain ⟨m, ms, rfl⟩ := List.exists_cons_of_ne_nil hne
  have hall : ∀ l ∈ m :: ms, Spells .assignment (assignmentText l).toList (.assigning l) :=
    fun l hl => assigning (hms l hl).1 (hms l hl).2
  rw [List.forall_mem_cons] at hall
  obtain ⟨ts, us, hrow, hfirst, hothers⟩ := intercalate_map hall.2 hall.1
  refine ⟨_, ?_, .assignments hfirst hothers⟩
  unfold assignmentsText
  simp only [String.toList_append]
  exact hrow.between (l := .leftParen) (r := .rightParen) rfl rfl rfl

theorem Spells.object (hne : ms ≠ []) (hms : ∀ m ∈ ms, m.2.Readable) :
    Spells .payload (Json.object ms).compact.toList (.document (.document (.ofMembers ms))) := by
  obtain ⟨⟨key, j⟩, ms, rfl⟩ := List.exists_cons_of_ne_nil hne
  rw [List.forall_mem_cons] at hms
  obtain ⟨us, hus, hj⟩ := Json.exists_derived j hms.1
  have hmembers := Json.exists_derived_members ms (Json.membersReadable_iff.2 hms.2)
  obtain ⟨ts, hts, hobject⟩ := Json.closes_object key ⟨us, hus, hj.document⟩ hmembers
  exact ⟨ts, hts.writes, .payloadObject hobject⟩

theorem Spells.parse_write (h : Spells .payload values.toList x) (hentity : entity ≠ "") :
    (parseStatement (writeText "insert " entity values)).result = .ok (.insert ⟨entity, x, none⟩) ∧
      (parseStatement (writeText "update " entity values)).result =
        .ok (.update ⟨entity, x⟩) := by
  obtain ⟨ts, hts, hx⟩ := h
  have htail := (Writes.quotedName hentity).append hts.blank rfl
  constructor
  · have hwrites : Writes (writeText "insert " entity values).toList
        (.keyword .insert :: .name entity :: ts) := by
      unfold writeText
      simp only [String.toList_append, List.append_assoc]
      exact (Closes.keyword .insert).append_writes htail
    apply parseStatement_of_produces
    rw [hwrites.tokens_eq]
    exact .statement (@Derives.insert _ false _ _ _ hx)
  · have hwrites : Writes (writeText "update " entity values).toList
        (.keyword .update :: .name entity :: ts) := by
      unfold writeText
      simp only [String.toList_append, List.append_assoc]
      exact (Closes.keyword .update).append_writes htail
    apply parseStatement_of_produces
    rw [hwrites.tokens_eq]
    exact .statement (.update hx)

end Texts

/-- Whether a text is a statement that calls every database once, and how. -/
def CallsOnce (text : String) (call : DatabaseCall) : Prop :=
  ∃ s, (parseStatement text).result = .ok s ∧
    ∀ {σ : Type} (db : Database σ) (p : Parameters) (st : σ) (calls : List DatabaseCall),
      (db.recorded.execute s p (st, calls)).2.2 = calls ++ [call]

theorem CallsOnce.of_call {text : String} {s : Statement} {call : DatabaseCall}
    (hparse : (parseStatement text).result = .ok s)
    (hcall : ∀ features p, s.databaseCall features p = .ok call) : CallsOnce text call := by
  refine ⟨s, hparse, ?_⟩
  intro σ db p st calls
  rw [db.execute_recorded, hcall]
  rfl

theorem Spells.callsOnce {entity values : String} {x : Payload} {record : Entity}
    (h : Spells .payload values.toList x) (hentity : entity ≠ "")
    (hbind : ∀ p, x.bind p = .ok x) (hrecord : x.record entity = .ok record) :
    CallsOnce (writeText "insert " entity values) (.insert record none) ∧
      CallsOnce (writeText "update " entity values) (.update record) := by
  obtain ⟨hinsert, hupdate⟩ := h.parse_write hentity
  constructor
  · apply CallsOnce.of_call hinsert
    intro features p
    have hbound : (Statement.insert ⟨entity, x, none⟩).bind p = .ok _ :=
      bind_eq_ok.2 ⟨x, hbind p, rfl⟩
    exact bind_eq_ok.2 ⟨_, hbound, bind_eq_ok.2 ⟨record, hrecord, rfl⟩⟩
  · apply CallsOnce.of_call hupdate
    intro features p
    have hbound : (Statement.update ⟨entity, x⟩).bind p = .ok _ :=
      bind_eq_ok.2 ⟨x, hbind p, rfl⟩
    exact bind_eq_ok.2 ⟨_, hbound, bind_eq_ok.2 ⟨record, hrecord, rfl⟩⟩

/-- How records of members agree that are written as assignments and as an object: they have the
same names, those of the members, each once, and the same values but for arrays. -/
structure Entity.Agrees (ms : List (String × Json)) (d e : Entity) : Prop where
  nodup : d.names.Nodup
  perm : d.names.Perm e.names
  mem_names : ∀ n, n ∈ d.names ↔ n ∈ ms.map Prod.fst
  value : ∀ n j, ms.reverse.lookup n = some j → (∀ items, j ≠ .array items) →
    d.get? n = some (.ofJson j) ∧ e.get? n = some (.ofJson j)
  array : ∀ n items, ms.reverse.lookup n = some (.array items) →
    d.get? n = some (.json (.array items)) ∧ e.get? n = some (.array (items.map Value.ofJson))

theorem Entity.agrees {name : String} {ms sorted : List (String × Json)}
    (h : ∀ n, sorted.reverse.lookup n = ms.reverse.lookup n) :
    Agrees ms (ofMembers Value.written (ofName name) ms)
      (ofMembers Value.ofJson (ofName name) sorted) := by
  have hnodup : ∀ (value : Json → Value) (ns : List (String × Json)),
      (ofMembers value (ofName name) ns).names.Nodup :=
    fun _ _ => nodup_names_ofMembers List.nodup_nil
  constructor
  · exact hnodup _ _
  · rw [List.perm_ext_iff_of_nodup (hnodup _ _) (hnodup _ _)]
    intro n
    rw [mem_names, mem_names, get?_ofMembers_ofName, get?_ofMembers_ofName, h, Option.isSome_map,
      Option.isSome_map]
  · intro n
    exact mem_names_ofMembers
  · intro n j hj hnot
    rw [get?_ofMembers_ofName, get?_ofMembers_ofName, h, hj]
    have hwritten : Value.written j = .ofJson j := by
      cases j with
      | array items => exact absurd rfl (hnot items)
      | _ => rfl
    exact ⟨congrArg some hwritten, rfl⟩
  · intro n items hitems
    rw [get?_ofMembers_ofName, get?_ofMembers_ofName, h, hitems]
    exact ⟨rfl, congrArg (some <| Value.array ·) (Value.ofJsonItems_eq_map items)⟩

/-- Assignments and an object of the same members write records with the same names and the same
values, but for arrays: as assignments these stay documents. -/
theorem payloads_agree {entity : String} {ms : List (String × Json)} (hentity : entity ≠ "")
    (hne : ms ≠ []) (hms : ∀ m ∈ ms, m.1 ≠ "" ∧ m.2.Readable) :
    ∃ d e : Entity, d.name = entity ∧ e.name = entity ∧ d.Agrees ms e ∧
      CallsOnce (writeText "insert " entity (assignmentsText ms)) (.insert d none) ∧
      CallsOnce (writeText "insert " entity (Json.object ms).compact) (.insert e none) ∧
      CallsOnce (writeText "update " entity (assignmentsText ms)) (.update d) ∧
      CallsOnce (writeText "update " entity (Json.object ms).compact) (.update e) := by
  have hassignments := Spells.assignments hne hms
  have hobject := Spells.object hne fun m hm => (hms m hm).2
  obtain ⟨sorted, hrecord, hlookup⟩ := Payload.exists_record_object entity ms
  have hbind : ∀ p, (Payload.assignments (ms.map Condition.assigning)).bind p =
      .ok (.assignments (ms.map .assigning)) := by
    intro p
    have hself : ∀ c ∈ ms.map Condition.assigning, c.bind p = .ok c := by
      intro c hc
      obtain ⟨m, -, rfl⟩ := List.mem_map.1 hc
      have hoperand : (Operand.written m.2).bind p = .ok (.written m.2) := by
        cases m.2 <;> rfl
      exact bind_eq_ok.2 ⟨_, hoperand, rfl⟩
    exact bind_eq_ok.2 ⟨_, Condition.bindItems_eq_self p hself, rfl⟩
  obtain ⟨hinsert, hupdate⟩ :=
    hassignments.callsOnce hentity hbind (Entity.ofAssignments_assigning entity ms)
  obtain ⟨hinsert', hupdate'⟩ := hobject.callsOnce hentity (fun _ => rfl) hrecord
  exact ⟨_, _, Entity.name_ofMembers, Entity.name_ofMembers, Entity.agrees hlookup, hinsert,
    hinsert', hupdate, hupdate'⟩

theorem payloads_agree_repeated :
    let ms : List (String × Json) :=
      [("b", .bool true), ("a", .array [.null, .text "x"]), ("b", .object [])]
    let assignments := "(\x60b\x60 = true, \x60a\x60 = [null,\"x\"], \x60b\x60 = \x7b\x7d)"
    let object := "\x7b\"b\":true,\"a\":[null,\"x\"],\"b\":\x7b\x7d\x7d"
    ∃ d e : Entity, d.name = "T" ∧ e.name = "T" ∧ d.Agrees ms e ∧
      CallsOnce (writeText "insert " "T" assignments) (.insert d none) ∧
      CallsOnce (writeText "insert " "T" object) (.insert e none) ∧
      CallsOnce (writeText "update " "T" assignments) (.update d) ∧
      CallsOnce (writeText "update " "T" object) (.update e) := by
  intro ms assignments object
  have hms : ∀ m ∈ ms, m.1 ≠ "" ∧ m.2.Readable := by
    simp only [ms, List.forall_mem_cons]
    exact ⟨⟨by decide, trivial⟩, ⟨by decide, trivial, trivial, trivial⟩,
      ⟨by decide, .nil, trivial⟩, nofun⟩
  have hassignments : assignmentsText ms = assignments := by decide +kernel
  have hobject : (Json.object ms).compact = object := by decide +kernel
  obtain ⟨d, e, hd, he, hagrees, hcalls⟩ :=
    @payloads_agree "T" ms (by decide) (List.cons_ne_nil _ _) hms
  rw [hassignments, hobject] at hcalls
  exact ⟨d, e, hd, he, hagrees, hcalls⟩

/-- The two forms do not always write the same values: an array stays a document as an assignment,
and becomes an array of values as a member. -/
theorem not_payloads_same :
    ¬∀ (entity : String) (ms : List (String × Json)), entity ≠ "" → ms ≠ [] →
      (∀ m ∈ ms, m.1 ≠ "" ∧ m.2.Readable) → ∀ d e : Entity,
        CallsOnce (writeText "insert " entity (assignmentsText ms)) (.insert d none) →
        CallsOnce (writeText "insert " entity (Json.object ms).compact) (.insert e none) →
        ∀ n v w, d.get? n = some v → e.get? n = some w → v.same w = true := by
  intro h
  have hms : ∀ m ∈ [("k", Json.array [.ofInt64 1])], m.1 ≠ "" ∧ m.2.Readable :=
    List.forall_mem_singleton.2 ⟨by decide, ⟨1, rfl⟩, trivial⟩
  have hne : [("k", Json.array [.ofInt64 1])] ≠ [] := List.cons_ne_nil _ _
  have hassignments := @Spells.callsOnce "T" _ _ _ (Spells.assignments hne hms) (by decide)
    (fun _ => rfl) (Entity.ofAssignments_assigning "T" _)
  have hobject := @Spells.callsOnce "T" _ _ _ (Spells.object hne fun m hm => (hms m hm).2)
    (by decide) (fun _ => rfl) rfl
  have hsame := h "T" _ (by decide) hne hms _ _ hassignments.1 hobject.1 "k" _ _ rfl rfl
  cases hsame

end StoreQuery

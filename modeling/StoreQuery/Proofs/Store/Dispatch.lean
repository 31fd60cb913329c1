import StoreQuery.Proofs.Entity
import StoreQuery.Proofs.Query.Binding
import StoreQuery.Proofs.Store.Recording
import StoreQuery.Store.Memory

/-! # Dispatch of statements

Whether a statement reaches a store is settled before the store acts: its kind, the features that it
requires, the values of its parameters and the records or keys that these give are looked at in
turn. A statement that passes all of this becomes one call, and the store's answer is the result.
-/

namespace StoreQuery

section Read

mutual

theorem Operand.read_eq_error {e : QueryError} : ∀ v : Operand, v.mentions = [] →
    v.read = .error e → ∃ fault, e = .meaning fault
  | .literal _, _, h | .document _, _, h => by cases h
  | .parameter _, hv, _ => by cases hv
  | .nested _, _, h => by
    cases h
    exact ⟨_, rfl⟩
  | .list items, hv, h => by
    rw [Operand.read] at h
    split at h
    · cases h
    · next hitems =>
      cases h
      exact Operand.readItems_eq_error items hv hitems

theorem Operand.readItems_eq_error {e : QueryError} : ∀ vs : List Operand,
    Operand.mentionsOfItems vs = [] → Operand.readItems vs = .error e → ∃ fault, e = .meaning fault
  | [], _, h => by cases h
  | v :: vs, hv, h => by
    obtain ⟨hv, hvs⟩ := List.append_eq_nil_iff.1 hv
    rw [Operand.readItems] at h
    split at h
    · next hread =>
      cases h
      exact v.read_eq_error hv hread
    · split at h
      · next hread =>
        cases h
        exact Operand.readItems_eq_error vs hvs hread
      · cases h

end

theorem Operand.readItems_eq_ok {vs : List Operand} {ws : List Value}
    (h : Operand.readItems vs = .ok ws) : List.Forall₂ (fun v w => v.read = .ok w) vs ws := by
  induction vs generalizing ws with
  | nil =>
    cases h
    exact .nil
  | cons v vs ih =>
    rw [Operand.readItems] at h
    split at h
    · cases h
    · next hv =>
      split at h
      · cases h
      · next hvs =>
        cases h
        exact .cons hv (ih hvs)

theorem Condition.Unassignable.eq_meaning {c : Condition} {e : QueryError}
    (h : c.Unassignable e) (hc : c.mentions = []) : ∃ fault, e = .meaning fault := by
  cases h with
  | noEquality => exact ⟨_, rfl⟩
  | noValue h => exact Operand.read_eq_error _ hc h

theorem Payload.record_eq_error {entity : String} {x : Payload} {e : QueryError}
    (hx : x.mentions = []) (h : x.record entity = .error e) : ∃ fault, e = .meaning fault := by
  cases x with
  | assignments cs =>
    obtain ⟨before, c, after, rfl, -, hc⟩ := Entity.ofAssignments_eq_error.1 h
    rw [Payload.mentions, Condition.mentionsOfItems_eq, List.flatMap_eq_nil_iff] at hx
    exact hc.eq_meaning (hx c (List.mem_append_right before List.mem_cons_self))
  | document v =>
    obtain h | ⟨w, _, h⟩ := bind_eq_error.1 h
    · exact v.read_eq_error hx h
    · unfold Entity.ofJson at h
      split at h <;> cases h
      exact ⟨_, rfl⟩

end Read

/-- Whether a value is the one of an operand when the parameters have theirs. -/
def Operand.HasValue (p : Parameters) (v : Operand) (w : Value) : Prop :=
  ∃ bound, v.bind p = .ok bound ∧ bound.read = .ok w

namespace Statement

/-- Why a statement with its values gives no call: its payload is no record, or one of its keys or
its value is none. -/
inductive Unreadable : Statement → MeaningFault → Prop where
  | insert {s : Insert} {fault : MeaningFault}
      (h : s.payload.record s.entity = .error (.meaning fault)) : Unreadable (.insert s) fault
  | update {s : Update} {fault : MeaningFault}
      (h : s.payload.record s.entity = .error (.meaning fault)) : Unreadable (.update s) fault
  | get {keys : List Operand} {fault : MeaningFault}
      (h : Operand.readItems keys = .error (.meaning fault)) : Unreadable (.get keys) fault
  | putKey {s : Put} {fault : MeaningFault} (h : s.key.read = .error (.meaning fault)) :
      Unreadable (.put s) fault
  | putValue {s : Put} {key : Value} {fault : MeaningFault} (hkey : s.key.read = .ok key)
      (h : s.value.read = .error (.meaning fault)) : Unreadable (.put s) fault
  | del {keys : List Operand} {fault : MeaningFault}
      (h : Operand.readItems keys = .error (.meaning fault)) : Unreadable (.del keys) fault

/-- Why a statement does not reach a store of the given family and features, in the order in which
the reasons are looked for. -/
inductive Refused (keyed : Bool) (c : Capabilities) (p : Parameters) (s : Statement) :
    QueryError → Prop where
  | family (h : s.isKeyed ≠ keyed) : Refused keyed c p s (.unsupported (.statements s.kind))
  | feature {before after : List Capability} {f : Capability} (hkind : s.isKeyed = keyed)
      (hrequires : s.requires = before ++ f :: after)
      (hbefore : ∀ g ∈ before, c.supports g = true) (hf : c.supports f = false) :
      Refused keyed c p s (.unsupported f)
  | binding {e : QueryError} (hkind : s.isKeyed = keyed)
      (hrequires : ∀ f ∈ s.requires, c.supports f = true) (h : s.bind p = .error e) :
      Refused keyed c p s e
  | reading {t : Statement} {fault : MeaningFault} (hkind : s.isKeyed = keyed)
      (hrequires : ∀ f ∈ s.requires, c.supports f = true) (ht : s.bind p = .ok t)
      (h : t.Unreadable fault) : Refused keyed c p s (.meaning fault)

section Prepare

variable {keyed : Bool} {c : Capabilities} {p : Parameters} {s t : Statement} {e : QueryError}

theorem missing?_eq_none : s.missing? c = none ↔ ∀ f ∈ s.requires, c.supports f = true := by
  simp [missing?]

theorem missing?_eq_some {f : Capability} : s.missing? c = some f ↔
    ∃ before after, s.requires = before ++ f :: after ∧ (∀ g ∈ before, c.supports g = true) ∧
      c.supports f = false := by
  rw [missing?, List.find?_eq_some_iff_append]
  constructor
  · rintro ⟨hf, before, after, hrequires, hbefore⟩
    exact ⟨before, after, hrequires, by simpa using hbefore, by simpa using hf⟩
  · rintro ⟨before, after, hrequires, hbefore, hf⟩
    exact ⟨by simpa using hf, before, after, hrequires, by simpa using hbefore⟩

theorem prepareFor_eq_ok : s.prepareFor keyed c p = .ok t ↔
    s.isKeyed = keyed ∧ s.missing? c = none ∧ s.bind p = .ok t := by
  unfold prepareFor
  by_cases hkind : s.isKeyed = keyed
  · cases s.missing? c <;> simp [hkind]
  · simp [hkind]

theorem prepareFor_eq_error : s.prepareFor keyed c p = .error e ↔
    (s.isKeyed ≠ keyed ∧ e = .unsupported (.statements s.kind)) ∨
      (s.isKeyed = keyed ∧ ∃ f, s.missing? c = some f ∧ e = .unsupported f) ∨
        s.isKeyed = keyed ∧ s.missing? c = none ∧ s.bind p = .error e := by
  unfold prepareFor
  by_cases hkind : s.isKeyed = keyed
  · cases s.missing? c with
    | none => simp [hkind]
    | some f => simp [hkind, eq_comm (a := QueryError.unsupported f)]
  · simp [hkind, eq_comm (a := QueryError.unsupported _)]

theorem isKeyed_bind (ht : s.bind p = .ok t) : t.isKeyed = s.isKeyed :=
  congrArg StatementKind.isKeyed (kind_bind ht)

/-- A statement is refused for exactly these reasons, if they are the ones for which a call cannot
be read off it. -/
theorem prepareFor_bind_eq_error {κ : Type} {read : Statement → Except QueryError κ}
    (hread : ∀ t e, t.isKeyed = keyed → t.mentions = [] →
      (read t = .error e ↔ ∃ fault, e = .meaning fault ∧ t.Unreadable fault)) :
    s.prepareFor keyed c p >>= read = .error e ↔ s.Refused keyed c p e := by
  rw [bind_eq_error, prepareFor_eq_error]
  constructor
  · rintro ((⟨hkind, rfl⟩ | ⟨hkind, f, hf, rfl⟩ | ⟨hkind, hmissing, h⟩) | ⟨t, ht, h⟩)
    · exact .family hkind
    · obtain ⟨before, after, hrequires, hbefore, hf⟩ := missing?_eq_some.1 hf
      exact .feature hkind hrequires hbefore hf
    · exact .binding hkind (missing?_eq_none.1 hmissing) h
    · obtain ⟨hkind, hmissing, ht⟩ := prepareFor_eq_ok.1 ht
      have hunreadable := (hread t e (isKeyed_bind ht ▸ hkind) (mentions_bind ht)).1 h
      obtain ⟨fault, rfl, hfault⟩ := hunreadable
      exact .reading hkind (missing?_eq_none.1 hmissing) ht hfault
  · intro h
    cases h with
    | family hkind => exact Or.inl (Or.inl ⟨hkind, rfl⟩)
    | feature hkind hrequires hbefore hf =>
      exact Or.inl (Or.inr (Or.inl
        ⟨hkind, _, missing?_eq_some.2 ⟨_, _, hrequires, hbefore, hf⟩, rfl⟩))
    | binding hkind hrequires h =>
      exact Or.inl (Or.inr (Or.inr ⟨hkind, missing?_eq_none.2 hrequires, h⟩))
    | @reading t fault hkind hrequires ht h =>
      refine Or.inr ⟨t, prepareFor_eq_ok.2 ⟨hkind, missing?_eq_none.2 hrequires, ht⟩, ?_⟩
      exact (hread t _ (isKeyed_bind ht ▸ hkind) (mentions_bind ht)).2 ⟨fault, rfl, h⟩

end Prepare

inductive AsksDatabase (p : Parameters) : Statement → DatabaseCall → Prop where
  | select {s t : Select} (h : s.bind p = .ok t) : AsksDatabase p (.select s) (.select t)
  | insert {s : Insert} {x : Payload} {record : Entity} (hx : s.payload.bind p = .ok x)
      (h : x.record s.entity = .ok record) : AsksDatabase p (.insert s) (.insert record s.ttl)
  | update {s : Update} {x : Payload} {record : Entity} (hx : s.payload.bind p = .ok x)
      (h : x.record s.entity = .ok record) : AsksDatabase p (.update s) (.update record)
  | delete {s : Delete} {condition : Option Condition}
      (h : Condition.bindClause p s.condition = .ok condition) :
      AsksDatabase p (.delete s) (.delete ⟨s.entity, s.fields, condition⟩)

inductive AsksBucket (p : Parameters) : Statement → BucketCall → Prop where
  | get {keys : List Operand} {values : List Value}
      (h : List.Forall₂ (Operand.HasValue p) keys values) : AsksBucket p (.get keys) (.get values)
  | put {s : Put} {pair : Pair} (hkey : s.key.HasValue p pair.key)
      (hvalue : s.value.HasValue p pair.value) : AsksBucket p (.put s) (.put pair s.ttl)
  | del {keys : List Operand} {values : List Value}
      (h : List.Forall₂ (Operand.HasValue p) keys values) :
      AsksBucket p (.del keys) (.delete values)

section Call

variable {c : Capabilities} {p : Parameters} {s t : Statement} {e : QueryError}

/-- The call of a database that a statement with its values is. -/
def asDatabaseCall : Statement → Except QueryError DatabaseCall
  | select s => .ok (.select s)
  | insert s => do
    let record ← s.payload.record s.entity
    return .insert record s.ttl
  | update s => do
    let record ← s.payload.record s.entity
    return .update record
  | delete s => .ok (.delete s)
  | other => .error (.unsupported (.statements other.kind))

def asBucketCall : Statement → Except QueryError BucketCall
  | get keys => do
    let keys ← Operand.readItems keys
    return .get keys
  | put s => do
    let key ← s.key.read
    let value ← s.value.read
    return .put ⟨key, value⟩ s.ttl
  | del keys => do
    let keys ← Operand.readItems keys
    return .delete keys
  | other => .error (.unsupported (.statements other.kind))

theorem databaseCall_eq : s.databaseCall c p = s.prepareFor false c p >>= asDatabaseCall := by
  apply bind_congr
  intro t
  cases t <;> rfl

theorem bucketCall_eq : s.bucketCall c p = s.prepareFor true c p >>= asBucketCall := by
  apply bind_congr
  intro t
  cases t <;> rfl

theorem asDatabaseCall_eq_error (hkind : t.isKeyed = false) (hmentions : t.mentions = []) :
    t.asDatabaseCall = .error e ↔ ∃ fault, e = .meaning fault ∧ t.Unreadable fault := by
  constructor
  · intro h
    cases t with
    | select | delete => cases h
    | insert s =>
      obtain h | ⟨_, _, ⟨⟩⟩ := bind_eq_error.1 h
      obtain ⟨fault, rfl⟩ := Payload.record_eq_error hmentions h
      exact ⟨fault, rfl, .insert h⟩
    | update s =>
      obtain h | ⟨_, _, ⟨⟩⟩ := bind_eq_error.1 h
      obtain ⟨fault, rfl⟩ := Payload.record_eq_error hmentions h
      exact ⟨fault, rfl, .update h⟩
    | get | put | del => cases hkind
  · rintro ⟨fault, rfl, h⟩
    cases h with
    | insert h | update h => exact bind_eq_error.2 (Or.inl h)
    | get | putKey | putValue | del => cases hkind

theorem asBucketCall_eq_error (hkind : t.isKeyed = true) (hmentions : t.mentions = []) :
    t.asBucketCall = .error e ↔ ∃ fault, e = .meaning fault ∧ t.Unreadable fault := by
  constructor
  · intro h
    cases t with
    | get keys =>
      obtain h | ⟨_, _, ⟨⟩⟩ := bind_eq_error.1 h
      obtain ⟨fault, rfl⟩ := Operand.readItems_eq_error keys hmentions h
      exact ⟨fault, rfl, .get h⟩
    | put s =>
      obtain ⟨hkey, hvalue⟩ := List.append_eq_nil_iff.1 hmentions
      obtain h | ⟨key, hread, h⟩ := bind_eq_error.1 h
      · obtain ⟨fault, rfl⟩ := s.key.read_eq_error hkey h
        exact ⟨fault, rfl, .putKey h⟩
      · obtain h | ⟨_, _, ⟨⟩⟩ := bind_eq_error.1 h
        obtain ⟨fault, rfl⟩ := s.value.read_eq_error hvalue h
        exact ⟨fault, rfl, .putValue hread h⟩
    | del keys =>
      obtain h | ⟨_, _, ⟨⟩⟩ := bind_eq_error.1 h
      obtain ⟨fault, rfl⟩ := Operand.readItems_eq_error keys hmentions h
      exact ⟨fault, rfl, .del h⟩
    | select | insert | update | delete => cases hkind
  · rintro ⟨fault, rfl, h⟩
    cases h with
    | get h | putKey h | del h => exact bind_eq_error.2 (Or.inl h)
    | putValue hkey h =>
      exact bind_eq_error.2 (Or.inr ⟨_, hkey, bind_eq_error.2 (Or.inl h)⟩)
    | insert | update => cases hkind

theorem databaseCall_eq_error : s.databaseCall c p = .error e ↔ s.Refused false c p e := by
  rw [databaseCall_eq]
  exact prepareFor_bind_eq_error fun t _ => asDatabaseCall_eq_error

theorem bucketCall_eq_error : s.bucketCall c p = .error e ↔ s.Refused true c p e := by
  rw [bucketCall_eq]
  exact prepareFor_bind_eq_error fun t _ => asBucketCall_eq_error

theorem asksDatabase_of_call {call : DatabaseCall} (h : s.databaseCall c p = .ok call) :
    s.AsksDatabase p call := by
  rw [databaseCall_eq] at h
  obtain ⟨t, ht, hcall⟩ := bind_eq_ok.1 h
  obtain ⟨hkind, -, ht⟩ := prepareFor_eq_ok.1 ht
  cases s with
  | select s =>
    obtain ⟨bound, hbound, ⟨⟩⟩ := bind_eq_ok.1 ht
    cases hcall
    exact .select hbound
  | insert s =>
    obtain ⟨x, hx, ⟨⟩⟩ := bind_eq_ok.1 ht
    obtain ⟨record, hrecord, ⟨⟩⟩ := bind_eq_ok.1 hcall
    exact .insert hx hrecord
  | update s =>
    obtain ⟨x, hx, ⟨⟩⟩ := bind_eq_ok.1 ht
    obtain ⟨record, hrecord, ⟨⟩⟩ := bind_eq_ok.1 hcall
    exact .update hx hrecord
  | delete s =>
    obtain ⟨condition, hcondition, ⟨⟩⟩ := bind_eq_ok.1 ht
    cases hcall
    exact .delete hcondition
  | get | put | del => cases hkind

theorem bindItems_eq_ok {vs ws : List Operand} (h : Operand.bindItems p vs = .ok ws) :
    List.Forall₂ (fun v w => v.bind p = .ok w) vs ws := by
  induction vs generalizing ws with
  | nil =>
    cases h
    exact .nil
  | cons v vs ih =>
    obtain ⟨w, hw, h⟩ := bind_eq_ok.1 h
    obtain ⟨ws, hws, ⟨⟩⟩ := bind_eq_ok.1 h
    exact .cons hw (ih hws)

theorem hasValue_of_readItems {keys bound : List Operand} {values : List Value}
    (hbound : Operand.bindItems p keys = .ok bound) (h : Operand.readItems bound = .ok values) :
    List.Forall₂ (Operand.HasValue p) keys values := by
  have hread := Operand.readItems_eq_ok h
  have hbind := bindItems_eq_ok hbound
  clear h hbound
  induction hbind generalizing values with
  | nil =>
    cases hread
    exact .nil
  | cons hv _ ih =>
    cases hread with
    | cons hw hread => exact .cons ⟨_, hv, hw⟩ (ih hread)

theorem asksBucket_of_call {call : BucketCall} (h : s.bucketCall c p = .ok call) :
    s.AsksBucket p call := by
  rw [bucketCall_eq] at h
  obtain ⟨t, ht, hcall⟩ := bind_eq_ok.1 h
  obtain ⟨hkind, -, ht⟩ := prepareFor_eq_ok.1 ht
  cases s with
  | get keys =>
    obtain ⟨bound, hbound, ⟨⟩⟩ := bind_eq_ok.1 ht
    obtain ⟨values, hvalues, ⟨⟩⟩ := bind_eq_ok.1 hcall
    exact .get (hasValue_of_readItems hbound hvalues)
  | put s =>
    obtain ⟨key, hkey, ht⟩ := bind_eq_ok.1 ht
    obtain ⟨value, hvalue, ⟨⟩⟩ := bind_eq_ok.1 ht
    obtain ⟨k, hk, hcall⟩ := bind_eq_ok.1 hcall
    obtain ⟨v, hv, ⟨⟩⟩ := bind_eq_ok.1 hcall
    exact .put ⟨key, hkey, hk⟩ ⟨value, hvalue, hv⟩
  | del keys =>
    obtain ⟨bound, hbound, ⟨⟩⟩ := bind_eq_ok.1 ht
    obtain ⟨values, hvalues, ⟨⟩⟩ := bind_eq_ok.1 hcall
    exact .del (hasValue_of_readItems hbound hvalues)
  | select | insert | update | delete => cases hkind

end Call

section Reasons

variable {keyed : Bool} {c : Capabilities} {p : Parameters} {s : Statement}

theorem statements_not_mem_requires {k : StatementKind} : .statements k ∉ s.requires := by
  cases s <;> simp [requires, apply_ite (Capability.statements k ∈ ·)]

theorem bind_ne_unsupported {f : Capability} : s.bind p ≠ .error (.unsupported f) := by
  intro h
  cases lacks h

/-- A kind of statements is only ever unsupported where the statement itself is of the other
family. -/
theorem Refused.isKeyed_ne {k : StatementKind}
    (h : s.Refused keyed c p (.unsupported (.statements k))) :
    s.isKeyed ≠ keyed ∧ k = s.kind := by
  cases h with
  | family hkind => exact ⟨hkind, rfl⟩
  | feature _ hrequires =>
    exact absurd (hrequires ▸ List.mem_append_right _ List.mem_cons_self)
      statements_not_mem_requires
  | binding _ _ h => exact absurd h bind_ne_unsupported

/-- Only binding finds a parameter without a value. -/
theorem Refused.bind_eq_error {n : String} (h : s.Refused keyed c p (.unresolvedParameter n)) :
    s.bind p = .error (.unresolvedParameter n) := by
  cases h with
  | binding _ _ h => exact h

end Reasons

end Statement

/-- The parameters that the operands of a call mention. Records have none. -/
def DatabaseCall.mentions : DatabaseCall → List String
  | insert _ _ | update _ => []
  | delete s => Condition.mentionsOfClause s.condition
  | select s => s.mentions

theorem Statement.AsksDatabase.mentions_eq_nil {p : Parameters} {s : Statement}
    {call : DatabaseCall} (h : s.AsksDatabase p call) : call.mentions = [] := by
  cases h with
  | insert | update => rfl
  | @select s t h =>
    exact (closed_mentions_eq_nil p s.mentions).rel_select s t (List.Subset.refl _) h
  | @delete s condition h =>
    have hrel := (closed_mentions_eq_nil p _).rel_clause s.condition condition
      (List.Subset.refl _) h
    obtain ⟨entity, fields, clause⟩ := s
    cases hrel with
    | none => rfl
    | some hd => exact hd

section Answers

variable {σ : Type} (st : σ)

inductive Database.Answers (db : Database σ) :
    DatabaseCall → Except QueryError (Outcome Entity) → σ → Prop where
  | insert {record : Entity} {ttl : Option Lifetime} {answer : Except String Entity} {after : σ}
      (h : db.insert record ttl st = (answer, after)) :
      db.Answers (.insert record ttl) (Outcome.mirror .echo answer) after
  | update {record : Entity} {answer : Except String Entity} {after : σ}
      (h : db.update record st = (answer, after)) :
      db.Answers (.update record) (Outcome.mirror .echo answer) after
  | delete {s : Delete} {answer : Except String (Option UInt64)} {after : σ}
      (h : db.delete s st = (answer, after)) :
      db.Answers (.delete s) (Outcome.mirror (·.elim .done .count) answer) after
  | select {s : Select} {answer : Except String (List (Except String Entity))} {after : σ}
      (h : db.select s st = (answer, after)) :
      db.Answers (.select s) (Outcome.mirror .stream answer) after

inductive Bucket.Answers (b : Bucket σ) :
    BucketCall → Except QueryError (Outcome Value) → σ → Prop where
  | put {pair : Pair} {ttl : Option Lifetime} {answer : Except String Unit} {after : σ}
      (h : b.put pair ttl st = (answer, after)) :
      b.Answers (.put pair ttl) (Outcome.mirror (fun _ => .echo pair.value) answer) after
  | get {keys : List Value} {answer : Except String (List (Except String Value))} {after : σ}
      (h : b.get keys st = (answer, after)) :
      b.Answers (.get keys) (Outcome.mirror .stream answer) after
  | delete {keys : List Value} {answer : Except String Unit} {after : σ}
      (h : b.delete keys st = (answer, after)) :
      b.Answers (.delete keys) (Outcome.mirror (fun _ => .done) answer) after

variable {st}

theorem Database.answers_perform (db : Database σ) (call : DatabaseCall) :
    db.Answers st call (db.perform call st).1 (db.perform call st).2 := by
  cases call <;> rw [perform, Outcome.ofAnswer_eq]
  case insert => exact .insert rfl
  case update => exact .update rfl
  case select => exact .select rfl
  case delete s =>
    cases h : db.delete s st with
    | mk answer after =>
      have hdelete := Answers.delete h
      rcases answer with message | none | n <;> exact hdelete

theorem Bucket.answers_perform (b : Bucket σ) (call : BucketCall) :
    b.Answers st call (b.perform call st).1 (b.perform call st).2 := by
  cases call <;> rw [perform, Outcome.ofAnswer_eq]
  case put => exact .put rfl
  case get => exact .get rfl
  case delete => exact .delete rfl

end Answers

/-- Whether an execution by a store that keeps its calls fails for one of some reasons and asks the
store for nothing, or asks it for one thing and gives its answer. -/
structure AllOrNothing {σ κ β : Type} (refused : QueryError → Prop)
    (serves : κ → Except QueryError (Outcome β) → σ → Prop) (st : σ) (calls : List κ)
    (execution : Except QueryError (Outcome β) × σ × List κ) : Prop where
  noCall : ∀ e, refused e → execution = (.error e, st, calls)
  oneCall : (∀ e, ¬ refused e) → ∃ call result after, serves call result after ∧
    execution = (result, after, calls ++ [call])

theorem allOrNothing_of_call {σ κ β : Type} {refused : QueryError → Prop}
    {serves : κ → Except QueryError (Outcome β) → σ → Prop} {st : σ} {calls : List κ}
    {perform : κ → Except QueryError (Outcome β) × σ} {call : Except QueryError κ}
    (herror : ∀ e, call = .error e ↔ refused e)
    (hok : ∀ k, call = .ok k → serves k (perform k).1 (perform k).2) :
    AllOrNothing refused serves st calls (atMostOneCall perform st calls call) := by
  constructor
  · intro e he
    rw [(herror e).2 he, atMostOneCall]
  · intro h
    cases call with
    | error e => exact absurd ((herror e).1 rfl) (h e)
    | ok k => exact ⟨k, _, _, hok k rfl, rfl⟩

section Execute

variable {σ τ : Type} (db : Database σ) (b : Bucket τ) (s : Statement) (p : Parameters)

theorem Database.allOrNothing_execute (st : σ) (calls : List DatabaseCall) :
    AllOrNothing (s.Refused false db.capabilities p)
      (fun call result after =>
        s.AsksDatabase p call ∧ call.mentions = [] ∧ db.Answers st call result after)
      st calls (db.recorded.execute s p (st, calls)) := by
  rw [execute_recorded]
  apply allOrNothing_of_call
  · exact fun e => Statement.databaseCall_eq_error
  · intro call hcall
    have hasks := Statement.asksDatabase_of_call hcall
    exact ⟨hasks, hasks.mentions_eq_nil, db.answers_perform call⟩

theorem Bucket.allOrNothing_execute (st : τ) (calls : List BucketCall) :
    AllOrNothing (s.Refused true b.capabilities p)
      (fun call result after => s.AsksBucket p call ∧ b.Answers st call result after)
      st calls (b.recorded.execute s p (st, calls)) := by
  rw [execute_recorded]
  apply allOrNothing_of_call
  · exact fun e => Statement.bucketCall_eq_error
  · intro call hcall
    exact ⟨Statement.asksBucket_of_call hcall, b.answers_perform call⟩

variable {db b s p}

/-- An execution fails for the reasons for which a statement is refused, or as the store does. -/
theorem Database.execute_eq_error {st : σ} {e : QueryError}
    (h : (db.execute s p st).1 = .error e) :
    s.Refused false db.capabilities p e ∨ ∃ message, e = .store message := by
  rw [execute] at h
  split at h
  · next call _ =>
    right
    cases call <;> rw [perform, Outcome.ofAnswer_eq] at h <;> exact Outcome.mirror_eq_error h
  · next hcall =>
    cases h
    exact Or.inl (Statement.databaseCall_eq_error.1 hcall)

theorem Bucket.execute_eq_error {st : τ} {e : QueryError} (h : (b.execute s p st).1 = .error e) :
    s.Refused true b.capabilities p e ∨ ∃ message, e = .store message := by
  rw [execute] at h
  split at h
  · next call _ =>
    right
    cases call <;> rw [perform, Outcome.ofAnswer_eq] at h <;> exact Outcome.mirror_eq_error h
  · next hcall =>
    cases h
    exact Or.inl (Statement.bucketCall_eq_error.1 hcall)

variable (db b s p)

/-- Executing a statement is all or nothing. It asks the store for nothing and fails for the first
of the reasons to refuse it, or asks for one thing, which is read off the statement and the values
of its parameters, and gives what the store answers. That a kind of statements is unsupported means
that the statement itself is of the other family, and an unresolved parameter is one that binding
did not resolve. -/
theorem execute_allOrNothing (st : σ) (st' : τ) (calls : List DatabaseCall)
    (calls' : List BucketCall) :
    AllOrNothing (s.Refused false db.capabilities p)
        (fun call result after =>
          s.AsksDatabase p call ∧ call.mentions = [] ∧ db.Answers st call result after)
        st calls (db.recorded.execute s p (st, calls)) ∧
      AllOrNothing (s.Refused true b.capabilities p)
        (fun call result after => s.AsksBucket p call ∧ b.Answers st' call result after)
        st' calls' (b.recorded.execute s p (st', calls')) ∧
      (∀ t, s.bind p = .ok t → t.kind = s.kind) ∧
      (∀ k, (db.execute s p st).1 = .error (.unsupported (.statements k)) →
        s.isKeyed = true ∧ k = s.kind) ∧
      (∀ k, (b.execute s p st').1 = .error (.unsupported (.statements k)) →
        s.isKeyed = false ∧ k = s.kind) ∧
      (∀ n, (db.execute s p st).1 = .error (.unresolvedParameter n) ∨
          (b.execute s p st').1 = .error (.unresolvedParameter n) →
        s.bind p = .error (.unresolvedParameter n)) := by
  refine ⟨db.allOrNothing_execute s p st calls, b.allOrNothing_execute s p st' calls',
    fun t => Statement.kind_bind, ?_, ?_, ?_⟩
  · intro k h
    obtain h | ⟨_, ⟨⟩⟩ := Database.execute_eq_error h
    simpa using h.isKeyed_ne
  · intro k h
    obtain h | ⟨_, ⟨⟩⟩ := Bucket.execute_eq_error h
    simpa using h.isKeyed_ne
  · rintro n (h | h)
    · obtain h | ⟨_, ⟨⟩⟩ := Database.execute_eq_error h
      exact h.bind_eq_error
    · obtain h | ⟨_, ⟨⟩⟩ := Bucket.execute_eq_error h
      exact h.bind_eq_error

end Execute

theorem execute_allOrNothing_put :
    let p := (Parameters.ofNames ["k"]).fill "k" (.text "a")
    ∃ after, (Memory.bucket "bucket" .none).recorded.execute
        (.put ⟨.parameter "k", .literal (.int 1), none⟩) p (.empty, []) =
      (.ok (.echo (.int 1)), after, [.put ⟨.text "a", .int 1⟩ none]) := by
  intro p
  obtain ⟨-, hbucket, -⟩ := execute_allOrNothing (Memory.database "database" .none)
    (Memory.bucket "bucket" .none) (.put ⟨.parameter "k", .literal (.int 1), none⟩) p .empty .empty
    [] []
  have hserved : ∀ e, ¬ Statement.Refused true .none p
      (.put ⟨.parameter "k", .literal (.int 1), none⟩) e := by
    rintro e (h | ⟨-, h⟩ | ⟨-, -, h⟩ | ⟨-, -, ht, h⟩)
    · exact absurd rfl h
    · exact absurd h (by simp [Statement.requires, Statement.ttl?, Statement.condition?])
    · cases h
    · cases ht
      cases h with
      | putKey h => cases h
      | putValue _ h => cases h
  obtain ⟨call, result, after, ⟨hasks, hanswers⟩, hrun⟩ := hbucket.oneCall hserved
  cases hasks with
  | @put _ pair hkey hvalue =>
    obtain ⟨key, value⟩ := pair
    obtain ⟨_, ⟨⟩, ⟨⟩⟩ := hkey
    obtain ⟨_, ⟨⟩, ⟨⟩⟩ := hvalue
    cases hanswers with
    | put hput =>
      cases hput
      exact ⟨_, hrun⟩

end StoreQuery

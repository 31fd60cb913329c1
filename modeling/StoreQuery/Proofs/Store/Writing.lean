import StoreQuery.Proofs.Query.Native
import StoreQuery.Proofs.Query.Substitution
import StoreQuery.Proofs.Store.Dispatch
import StoreQuery.Store.Record

/-! # How records are written

A record becomes one assignment for each of its values. These mention no parameters, and the store
is called with the record that is read back from them: each name once, where it first stands, with
the native form of its last value. Nothing but a lifetime that the store does not support comes
between a record with a name and a value and this call.
-/

namespace StoreQuery

def Element.assignment (x : Element) : Condition :=
  .compare x.name .equal (.ofValue x.value)

theorem Element.bind_assignment (p : Parameters) (x : Element) :
    x.assignment.bind p = .ok x.assignment :=
  bind_eq_ok.2 ⟨_, Operand.bind_ofValue p x.value, rfl⟩

theorem Element.assigns_assignment (x : Element) :
    x.assignment.Assigns (x.name, x.value.native) :=
  .intro (Operand.read_ofValue_eq_native x.value)

namespace Entity

variable {e : Entity}

/-- The record that a store is called with when a record is written. -/
def native (e : Entity) : Entity :=
  ofMembers Value.native (ofName e.name) e.fields

/-- How the record that a store is called with relates to the one that is written. -/
structure Arrives (e record : Entity) : Prop where
  name_eq : record.name = e.name
  nodup : record.names.Nodup
  /-- The names stand in the order in which they first stand in the record that is written. -/
  names_eq : record.names = e.names.eraseDups
  /-- The value of a name is the native form of its last value. -/
  get?_eq : ∀ n, record.get? n = (e.fields.reverse.lookup n).map Value.native
  eq_self : e.names.Nodup → (∀ x ∈ e.elements, x.value.isNative = true) → record = e

theorem native_eq_self (hnames : e.names.Nodup)
    (hnative : ∀ x ∈ e.elements, x.value.isNative = true) : e.native = e := by
  have hfields : ((ofName e.name).names ++ e.fields.map Prod.fst).Nodup := by
    rw [map_fst_fields]
    exact hnames
  have helements : e.native.elements = e.elements := by
    rw [native, elements_ofMembers hfields, fields, List.map_map]
    refine (List.map_congr_left fun x hx => ?_).trans (List.map_id e.elements)
    exact congrArg (Element.mk x.name) (Value.native_of_isNative (hnative x hx))
  exact congrArg₂ Entity.mk name_ofMembers helements

theorem arrives_native (e : Entity) : e.Arrives e.native where
  name_eq := name_ofMembers
  nodup := nodup_names_ofMembers List.nodup_nil
  names_eq := by rw [native, names_ofMembers, map_fst_fields]
  get?_eq _ := get?_ofMembers_ofName
  eq_self := native_eq_self

section Payload

theorem payload_of_noName (h : e.name = "") :
    e.payload = .error (.argument .recordWithoutEntity) := by
  rw [payload, if_pos (String.isEmpty_iff.2 h)]

theorem payload_of_noFields (hname : e.name ≠ "") (h : e.elements = []) :
    e.payload = .error (.argument (.recordWithoutFields e.name)) := by
  have hempty : e.isEmpty = true := List.isEmpty_iff.2 h
  rw [payload, if_neg (mt String.isEmpty_iff.1 hname), if_pos hempty]

/-- A record that can be written becomes assignments without parameters, which are read back as the
record that arrives. -/
theorem exists_payload (hname : e.name ≠ "") (h : e.elements ≠ []) :
    ∃ x, e.payload = .ok x ∧ (∀ p, x.bind p = .ok x) ∧ x.record e.name = .ok e.native := by
  have hfull : ¬e.isEmpty = true := mt List.isEmpty_iff.1 h
  refine ⟨.assignments (e.elements.map Element.assignment), ?_, fun p => ?_, ?_⟩
  · rw [payload, if_neg (mt String.isEmpty_iff.1 hname), if_neg hfull]
    rfl
  · have hself : ∀ c ∈ e.elements.map Element.assignment, c.bind p = .ok c := by
      intro c hc
      obtain ⟨x, -, rfl⟩ := List.mem_map.1 hc
      exact x.bind_assignment p
    exact bind_eq_ok.2 ⟨_, Condition.bindItems_eq_self p hself, rfl⟩
  · rw [native, ← ofMembers_map, fields, List.map_map]
    exact ofAssignments_map fun x _ => x.assigns_assignment

end Payload

end Entity

namespace Statement

variable {c : Capabilities} {p : Parameters} {s t : Statement} {call : DatabaseCall}

theorem databaseCall_of_bind (hkind : s.isKeyed = false)
    (hrequires : ∀ f ∈ s.requires, c.supports f = true) (ht : s.bind p = .ok t)
    (hcall : t.asDatabaseCall = .ok call) : s.databaseCall c p = .ok call := by
  rw [databaseCall_eq]
  exact bind_eq_ok.2 ⟨t, prepareFor_eq_ok.2 ⟨hkind, missing?_eq_none.2 hrequires, ht⟩, hcall⟩

theorem requires_insert {entity : String} {x : Payload} {ttl : Option Lifetime} :
    (insert ⟨entity, x, ttl⟩).requires = if ttl.isSome then [.ttl] else [] := by
  cases ttl <;> rfl

end Statement

theorem Outcome.echoed_ofAnswer {σ : Type} (answer : Except String Entity × σ) :
    (ofAnswer .echo answer).1 >>= echoed = answer.1.mapError .store := by
  obtain ⟨_ | _, _⟩ := answer <;> rfl

namespace Database

variable {σ : Type}

/-- What writing a record by a store that keeps its calls comes to. A record that can be written is
written by one call, if the store supports what this requires, and otherwise the store is not called
at all. -/
structure WritesOnce (e : Entity) (supported : Prop) (call : Entity → DatabaseCall)
    (act : Entity → Action σ Entity) (st : σ) (calls : List DatabaseCall)
    (run : Except QueryError Entity × σ × List DatabaseCall) : Prop where
  /-- The echo of the store is returned, or its error. -/
  arrives : e.name ≠ "" → e.elements ≠ [] → supported → ∃ record, e.Arrives record ∧
    run = ((act record st).1.mapError .store, (act record st).2, calls ++ [call record])
  unsupported : e.name ≠ "" → e.elements ≠ [] → ¬supported →
    run = (.error (.unsupported .ttl), st, calls)
  noName : e.name = "" → run = (.error (.argument .recordWithoutEntity), st, calls)
  noFields : e.name ≠ "" → e.elements = [] →
    run = (.error (.argument (.recordWithoutFields e.name)), st, calls)

section Run

variable {e : Entity} {supported : Prop} {call : Entity → DatabaseCall}
  {act : Entity → Action σ Entity} {st : σ} {calls : List DatabaseCall}
  {run : Except QueryError Entity × σ × List DatabaseCall} {db : Database σ}

theorem writesOnce_of_statement (statement : Payload → Statement)
    (hrun : run = match e.payload with
      | .ok x => db.recorded.write (statement x) (st, calls)
      | .error err => (.error err, st, calls))
    (hcall : ∀ x, x.bind .empty = .ok x → x.record e.name = .ok e.native → supported →
      (statement x).databaseCall db.capabilities .empty = .ok (call e.native))
    (hmissing : ∀ x, ¬supported →
      (statement x).databaseCall db.capabilities .empty = .error (.unsupported .ttl))
    (hact : db.perform (call e.native) st = Outcome.ofAnswer .echo (act e.native st)) :
    WritesOnce e supported call act st calls run where
  arrives hname hfields hsupported := by
    obtain ⟨x, hx, hbind, hrecord⟩ := Entity.exists_payload hname hfields
    refine ⟨e.native, e.arrives_native, ?_⟩
    rw [hrun, hx]
    simp only [write, execute_recorded, hcall x (hbind .empty) hrecord hsupported, atMostOneCall,
      hact, Outcome.echoed_ofAnswer]
    rw [Outcome.ofAnswer_eq]
  unsupported hname hfields hsupported := by
    obtain ⟨x, hx, -⟩ := Entity.exists_payload hname hfields
    rw [hrun, hx]
    simp only [write, execute_recorded, hmissing x hsupported, atMostOneCall]
    rfl
  noName hname := by rw [hrun, Entity.payload_of_noName hname]
  noFields hname hfields := by rw [hrun, Entity.payload_of_noFields hname hfields]

/-- Writing a record fails as the store does, or for a reason that has nothing to do with the values
of the record. -/
theorem WritesOnce.error_cases (h : WritesOnce e supported call act st calls run)
    {err : QueryError} (herr : run.1 = .error err) :
    (∃ fault, err = .argument fault) ∨ err = .unsupported .ttl ∨
      ∃ message, err = .store message := by
  by_cases hname : e.name = ""
  · rw [h.noName hname] at herr
    cases herr
    exact Or.inl ⟨_, rfl⟩
  by_cases hfields : e.elements = []
  · rw [h.noFields hname hfields] at herr
    cases herr
    exact Or.inl ⟨_, rfl⟩
  by_cases hsupported : supported
  · obtain ⟨record, -, hrun⟩ := h.arrives hname hfields hsupported
    rw [hrun] at herr
    obtain ⟨message, -, rfl⟩ := mapError_eq_error.1 herr
    exact Or.inr (Or.inr ⟨message, rfl⟩)
  · rw [h.unsupported hname hfields hsupported] at herr
    cases herr
    exact Or.inr (Or.inl rfl)

end Run

variable (db : Database σ) (e : Entity) (ttl : Option Lifetime) (st : σ)
  (calls : List DatabaseCall)

theorem writesOnce_insertRecord :
    WritesOnce e (ttl.isSome = true → db.capabilities.ttl = true) (.insert · ttl) (db.insert · ttl)
      st calls (db.recorded.insertRecord e ttl (st, calls)) := by
  apply writesOnce_of_statement (fun x => .insert ⟨e.name, x, ttl⟩) rfl
  · intro x hbind hrecord hsupported
    apply Statement.databaseCall_of_bind rfl
    · rw [Statement.requires_insert]
      split
      · next httl => exact List.forall_mem_singleton.2 (hsupported httl)
      · exact nofun
    · exact bind_eq_ok.2 ⟨x, hbind, rfl⟩
    · exact bind_eq_ok.2 ⟨_, hrecord, rfl⟩
  · intro x hsupported
    obtain ⟨httl, hnot⟩ := Classical.not_imp.1 hsupported
    rw [Statement.databaseCall_eq_error]
    have hrequires : (Statement.insert ⟨e.name, x, ttl⟩).requires = [] ++ Capability.ttl :: [] := by
      rw [Statement.requires_insert, if_pos httl]
      rfl
    exact .feature rfl hrequires nofun (Bool.eq_false_iff.2 hnot)
  · rfl

theorem writesOnce_updateRecord :
    WritesOnce e True .update db.update st calls (db.recorded.updateRecord e (st, calls)) := by
  apply writesOnce_of_statement (fun x => .update ⟨e.name, x⟩) rfl
  · intro x hbind hrecord _
    apply Statement.databaseCall_of_bind rfl
    · exact nofun
    · exact bind_eq_ok.2 ⟨x, hbind, rfl⟩
    · exact bind_eq_ok.2 ⟨_, hrecord, rfl⟩
  · exact fun x h => absurd trivial h
  · rfl

end Database

/-- A record with a name and a value arrives at the store, by one call, with each name once and the
native form of its last value; the echo of the store is returned. That a store does not support
lifetimes is found before it is called, and a record without a name or without values is none to be
written. No record fails for its meaning or for a parameter. -/
theorem records_written {σ : Type} (db : Database σ) (e : Entity) (ttl : Option Lifetime) (st : σ)
    (calls : List DatabaseCall) :
    let insertion := db.recorded.insertRecord e ttl (st, calls)
    let update := db.recorded.updateRecord e (st, calls)
    Database.WritesOnce e (ttl.isSome = true → db.capabilities.ttl = true) (.insert · ttl)
        (db.insert · ttl) st calls insertion ∧
      Database.WritesOnce e True .update db.update st calls update ∧
      ∀ err, insertion.1 = .error err ∨ update.1 = .error err →
        (∀ fault, err ≠ .meaning fault) ∧
          ∀ n, err ≠ .unknownParameter n ∧ err ≠ .unresolvedParameter n := by
  intro insertion update
  have hinsertion := db.writesOnce_insertRecord e ttl st calls
  have hupdate := db.writesOnce_updateRecord e st calls
  refine ⟨hinsertion, hupdate, fun err h => ?_⟩
  have hcases : (∃ fault, err = .argument fault) ∨ err = .unsupported .ttl ∨
      ∃ message, err = .store message := by
    rcases h with h | h
    · exact hinsertion.error_cases h
    · exact hupdate.error_cases h
  rcases hcases with ⟨_, rfl⟩ | rfl | ⟨_, rfl⟩ <;> exact ⟨nofun, fun n => ⟨nofun, nofun⟩⟩

/-- A repeated name keeps its place and takes the last value. -/
theorem records_written_repeated :
    let e : Entity :=
      ⟨"T", [⟨"b", .int 1⟩, ⟨"a", .json (.array [.null])⟩, ⟨"b", .json (.text "x")⟩]⟩
    let ttl : Option Lifetime := some ⟨60, 0, by decide⟩
    let full := Memory.database "database" .all
    let plain := Memory.database "database" .none
    (∃ record, record.names = ["b", "a"] ∧ record.get? "b" = some (.text "x") ∧
      record.get? "a" = some (.array [.null]) ∧
      (full.recorded.insertRecord e ttl (.empty, [])).1 = .ok record ∧
      (full.recorded.insertRecord e ttl (.empty, [])).2.2 = [.insert record ttl]) ∧
    plain.recorded.insertRecord e ttl (.empty, []) = (.error (.unsupported .ttl), .empty, []) ∧
    (∃ record, plain.recorded.updateRecord e (.empty, []) =
      (.ok record, ((plain.update record .empty).2, [.update record]))) ∧
    full.recorded.updateRecord ⟨"", e.elements⟩ (.empty, []) =
      (.error (.argument .recordWithoutEntity), .empty, []) := by
  intro e ttl full plain
  obtain ⟨hfull, -, -⟩ := records_written full e ttl .empty []
  obtain ⟨hplain, hupdate, -⟩ := records_written plain e ttl .empty []
  obtain ⟨-, hnameless, -⟩ := records_written full ⟨"", e.elements⟩ ttl .empty []
  have hname : e.name ≠ "" := by decide
  have hbare : ¬(ttl.isSome = true → plain.capabilities.ttl = true) := by decide
  have hfields : e.elements ≠ [] := List.cons_ne_nil _ _
  refine ⟨?_, hplain.unsupported hname hfields hbare, ?_, hnameless.noName rfl⟩
  · obtain ⟨record, harrives, hrun⟩ := hfull.arrives hname hfields fun _ => rfl
    rw [hrun]
    exact ⟨record, harrives.names_eq, harrives.get?_eq "b", harrives.get?_eq "a", rfl, rfl⟩
  · obtain ⟨record, -, hrun⟩ := hupdate.arrives hname hfields trivial
    exact ⟨record, hrun⟩

end StoreQuery

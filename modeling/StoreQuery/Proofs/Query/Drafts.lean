import StoreQuery.Proofs.Query.CallFaults
import StoreQuery.Store.Chain
import StoreQuery.Store.Memory

/-! # Building by calls

The draft that is kept while calls are made agrees with the chain that the calls describe: it has
recorded the first fault of the calls, and as long as there is none, its groups are those of the
tests. So building fails with the fault of the earliest call, and otherwise gives the clauses of
the calls, each once and in their order.
-/

namespace StoreQuery

namespace ConditionDraft

/-- The groups that tests form, whether or not they have faults. -/
def groupsOf (tests : List (Connective × Test)) : List (List Condition) :=
  (tests.map fun (o, t) => (o, t.stated)).foldl Condition.addToGroups []

theorem ofGroups_groupsOf (f : Option Filter) :
    Condition.ofGroups (groupsOf (Filter.allTests f)) = Filter.stated (Filter.allTests f) := by
  cases f with
  | none => rfl
  | some f => exact Condition.ofGroups_eq_join f.first.stated _

theorem groupsOf_concat (tests : List (Connective × Test)) (o : Connective) (t : Test) :
    groupsOf (tests ++ [(o, t)]) = Condition.addToGroups (groupsOf tests) (o, t.stated) := by
  rw [groupsOf, List.map_append, List.foldl_append]
  rfl

theorem complete_of_pending {d : ConditionDraft} {t : Pending} (h : d.pending = some t)
    (p : Predicate) :
    (d.complete p).1 = failFirst (p.faults t.name) () ∧ (d.complete p).2.pending = none ∧
      (p.faults t.name = [] → (d.complete p).2.groups =
        Condition.addToGroups d.groups (t.connective, Test.stated ⟨t.name, t.negated, p⟩)) := by
  rw [complete, h]
  simp only [Pending.condition_eq]
  cases p.faults t.name with
  | nil => exact ⟨rfl, rfl, fun _ => rfl⟩
  | cons => exact ⟨rfl, rfl, nofun⟩

end ConditionDraft

namespace Draft

variable {d : Draft} {p : Pending} {x : Call}

theorem error?_record (d : Draft) (es : List QueryError) :
    (d.record (failFirst es ())).error? = d.error?.or es.head? := by
  cases es <;> rfl

theorem error?_checkName (d : Draft) (role : NameRole) (name : String) :
    (d.record (checkName role name)).error? = d.error?.or (nameFaults role name).head? := by
  rw [checkName_eq, error?_record]

/-- Of several empty names the first one is reported, but all of them in the same words. -/
theorem head?_nameFaults (role : NameRole) (names : List String) :
    (names.flatMap (nameFaults role)).head? =
      if names.any String.isEmpty then some (.argument (.emptyName role)) else none := by
  induction names with
  | nil => rfl
  | cons name names ih =>
    rw [List.flatMap_cons, List.head?_append, ih]
    by_cases h : name = "" <;> simp [nameFaults, h]

theorem error?_ofFields (kind : ChainKind) (fields : List String) :
    (ofFields kind fields).error? = (fields.flatMap (nameFaults .projectedField)).head? := by
  rw [head?_nameFaults, ofFields]
  cases fields.any String.isEmpty <;> rfl

/-- A call records what is wrong with its argument, unless there is an error already. -/
theorem error?_step (h : ∀ q, x = .predicate q → d.conditions.pending = some p) :
    (d.step x).error? = d.error?.or (x.faults p).head? := by
  cases x with
  | entity | orderBy | filter | and | or => exact error?_checkName ..
  | predicate q =>
    obtain ⟨hresult, -⟩ := ConditionDraft.complete_of_pending (h q rfl) q
    simp only [step, hresult]
    exact error?_record ..
  | not | direction | skip | limit => exact Option.or_none.symm

end Draft

namespace Place

def pending? : Place → Option Pending
  | testing o name negated => some ⟨o, name, negated⟩
  | _ => none

def pendingSort : Place → String
  | sorting name => name
  | _ => ""

theorem pending_of_isOrderable {place : Place} (h : place.isOrderable = true) :
    place.pending? = none ∧ place.pendingSort = "" := by
  cases place with
  | named | tested | sorted => exact ⟨rfl, rfl⟩
  | _ => cases h

end Place

namespace Draft

/-- Whether a draft has come as far as a chain has at a place. -/
structure IsOf (d : Draft) (place : Place) (c : Chain) : Prop where
  kind : d.kind = c.kind
  pendingSort : d.pendingSort = place.pendingSort
  entity : d.entity = c.entity
  fields : d.fields = c.fields
  pending : d.conditions.pending = place.pending?
  error : d.error? = (c.fields.flatMap (nameFaults .projectedField) ++ c.reported place).head?
  groups : d.error? = none → d.conditions.groups = ConditionDraft.groupsOf c.tests

open Chain

variable {d : Draft} {place place' : Place} {c c' : Chain} {p : Pending} {x : Call}

theorem IsOf.pending_of_predicate (h : d.IsOf place c) (hready : c.IsReady p place)
    (hstep : Step place c x place' c') {q : Predicate} (hx : x = .predicate q) :
    d.conditions.pending = some p := by
  subst hx
  cases hstep with
  | predicate =>
    rw [hready.1]
    exact h.pending

theorem IsOf.error_step (h : d.IsOf place c) (hready : c.IsReady p place)
    (hstep : Step place c x place' c') :
    (d.step x).error? =
      (c'.fields.flatMap (nameFaults .projectedField) ++ c'.reported place').head? := by
  rw [error?_step fun _ => h.pending_of_predicate hready hstep, h.error, fields_step hstep,
    reported_step hready hstep, ← List.append_assoc]
  exact List.head?_append.symm

theorem IsOf.groups_step (h : d.IsOf place c) (hready : c.IsReady p place)
    (hstep : Step place c x place' c') (hnone : (d.step x).error? = none) :
    (d.step x).conditions.groups = ConditionDraft.groupsOf c'.tests := by
  have htests := tests_step hready hstep
  have hpending := fun q => h.pending_of_predicate hready hstep (q := q)
  -- Without an error after the call there was none before it, and the call has no fault.
  rw [error?_step hpending, Option.or_eq_none_iff, List.head?_eq_none_iff] at hnone
  obtain ⟨herror, hfaults⟩ := hnone
  have hgroups := h.groups herror
  cases hstep with
  | predicate =>
    obtain ⟨rfl, -⟩ := hready
    obtain ⟨-, -, hadded⟩ := ConditionDraft.complete_of_pending (hpending _ rfl) _
    rw [htests, Call.test, ConditionDraft.groupsOf_concat, ← hgroups]
    exact hadded hfaults
  | _ => exact hgroups

theorem IsOf.kind_step (h : d.IsOf place c) (hstep : Step place c x place' c') :
    (d.step x).kind = c'.kind := by
  obtain ⟨hkind, hsort, -⟩ := h
  cases hstep with
  | @direction _ _ _ _ _ _ _ o =>
    change d.kind.addSort ⟨d.pendingSort, o⟩ = _
    rw [hkind, hsort]
    rfl
  | skip | limitSkip => exact congrArg (ChainKind.withSkip _) hkind
  | limit | skipLimit => exact congrArg (ChainKind.withLimit _) hkind
  | predicate =>
    rw [addTest_eq]
    exact hkind
  | _ => exact hkind

/-- A call takes a draft as far as it takes the chain. -/
theorem IsOf.step (h : d.IsOf place c) (hready : c.IsReady p place)
    (hstep : Step place c x place' c') : (d.step x).IsOf place' c' := by
  have hkind := h.kind_step hstep
  have herror := h.error_step hready hstep
  have hgroups := h.groups_step hready hstep
  have hpredicate := fun q => h.pending_of_predicate hready hstep (q := q)
  obtain ⟨-, hsort, hentity, hfields, hpending, -, -⟩ := h
  cases hstep with
  | entity => exact ⟨hkind, hsort, rfl, hfields, hpending, herror, hgroups⟩
  | filter | and | or => exact ⟨hkind, hsort, hentity, hfields, rfl, herror, hgroups⟩
  | not =>
    have hnegated :=
      congrArg (Option.map fun t : Pending => { t with negated := !t.negated }) hpending
    exact ⟨hkind, hsort, hentity, hfields, hnegated, herror, hgroups⟩
  | predicate =>
    rw [addTest_eq] at *
    obtain ⟨-, hdone, -⟩ := ConditionDraft.complete_of_pending (hpredicate _ rfl) _
    exact ⟨hkind, hsort, hentity, hfields, hdone, herror, hgroups⟩
  | orderBy hplace =>
    rw [(Place.pending_of_isOrderable hplace).1] at hpending
    exact ⟨hkind, rfl, hentity, hfields, hpending, herror, hgroups⟩
  | skip hplace | limit hplace =>
    obtain ⟨hnone, hempty⟩ := Place.pending_of_isOrderable hplace
    exact ⟨hkind, hsort.trans hempty, hentity, hfields, hpending.trans hnone, herror, hgroups⟩
  | direction => exact ⟨hkind, rfl, hentity, hfields, hpending, herror, hgroups⟩
  | limitSkip | skipLimit => exact ⟨hkind, hsort, hentity, hfields, hpending, herror, hgroups⟩

theorem IsOf.calls {calls : List Call} (h : d.IsOf place c) (hc : c.IsAt p place)
    (hcalls : callAll place c calls = some (place', c')) :
    (calls.foldl Draft.step d).IsOf place' c' := by
  induction calls generalizing d place c p with
  | nil =>
    cases hcalls
    exact h
  | cons x calls ih =>
    obtain ⟨next, e, hcall, hrest⟩ := exists_of_callAll_cons hcalls
    have hx := step_of_call hcall
    exact ih (h.step hc.ready hx) (isAt_step hc hx) hrest

theorem isOf_ofFields {kind : ChainKind} (hkind : kind = .select [] 0 0 ∨ kind = .delete)
    (fields : List String) :
    (Draft.ofFields kind fields).IsOf .start (Chain.ofFields kind fields) := by
  have herror := (error?_ofFields kind fields).trans (congrArg _ (List.append_nil _).symm)
  rcases hkind with rfl | rfl <;> exact ⟨rfl, rfl, rfl, rfl, rfl, herror, fun _ => rfl⟩

/-- Where a chain may end, a draft that has come as far builds what the chain builds. -/
theorem IsOf.build_eq (h : d.IsOf place c) (hready : c.IsReady p place)
    (hplace : place.isFinal = true) : d.build = c.build := by
  obtain ⟨hgiven, hfaults, -⟩ := hready.of_isFinal hplace
  -- No name is pending where a chain may end, so that all faults of the chain have been reported.
  have herror : d.error? = c.faults.head? := by
    rw [h.error, Chain.reported, hgiven, hfaults]
    simp [Chain.faults]
  rw [Chain.build_eq, Draft.build]
  cases hc : c.faults with
  | cons e es =>
    rw [herror, hc]
    rfl
  | nil =>
    have hnone : d.error? = none := by rw [herror, hc]; rfl
    rw [hnone, h.kind, h.entity, h.fields, h.groups hnone, Chain.tests,
      ConditionDraft.ofGroups_groupsOf]
    obtain ⟨fields, entity, filter, kind⟩ := c
    cases kind <;> rfl

theorem build_ofCalls {kind : ChainKind} (hkind : kind = .select [] 0 0 ∨ kind = .delete)
    {fields : List String} {calls : List Call}
    (hc : Chain.ofCalls (Chain.ofFields kind fields) calls = some c) :
    (Draft.ofCalls kind fields calls).build = c.build := by
  obtain ⟨place, hcalls, hplace⟩ := exists_of_ofCalls hc
  have hstart := isAt_ofFields hkind fields
  obtain ⟨_, hat⟩ := exists_isAt_of_callAll hstart hcalls
  exact ((isOf_ofFields hkind fields).calls hstart hcalls).build_eq hat.ready hplace

end Draft

section Clauses

variable (fields : List String) (calls : List Call)

/-- Whether a condition is the one that the tests of calls state, where there are any: each test is
in it once, and they are in their order. -/
structure Condition.IsOfCalls (c : Option Condition) : Prop where
  stated : c = Filter.stated (Call.gather Call.test .empty calls)
  leaves : ∀ d ∈ c, d.leaves =
    (Call.gather Call.test .empty calls).map fun t => t.2.predicate.stated t.2.name

structure Select.IsOfCalls (s : Select) : Prop where
  entity : calls.filterMap Call.entity? = [s.entity]
  projection : s.fields = fields
  condition : Condition.IsOfCalls calls s.condition
  sorts : s.sorts = Call.gather Call.sort .empty calls
  skip : IsCount (calls.filterMap Call.skip?) s.skip
  limit : IsCount (calls.filterMap Call.limit?) s.limit

structure Delete.IsOfCalls (s : Delete) : Prop where
  entity : calls.filterMap Call.entity? = [s.entity]
  projection : s.fields = fields
  condition : Condition.IsOfCalls calls s.condition
  sorts : Call.gather Call.sort .empty calls = []
  skip : calls.filterMap Call.skip? = []
  limit : calls.filterMap Call.limit? = []

inductive Statement.IsOfCalls : ChainKind → Statement → Prop where
  | select {s : Select} (h : s.IsOfCalls fields calls) : IsOfCalls (.select [] 0 0) (.select s)
  | delete {s : Delete} (h : s.IsOfCalls fields calls) : IsOfCalls .delete (.delete s)

end Clauses

namespace Chain

variable {c : Chain} {kind : ChainKind} {fields : List String} {calls : List Call}

theorem Gathers.isOfCalls (h : c.Gathers fields calls)
    (hkind : kind = .select [] 0 0 ∨ kind = .delete)
    (hselect : c.isSelect = (ofFields kind fields).isSelect) :
    c.stated.IsOfCalls fields calls kind := by
  have hcondition : Condition.IsOfCalls calls (Filter.stated c.tests) :=
    h.tests ▸ ⟨rfl, fun _ hd => Filter.leaves_stated hd⟩
  obtain ⟨rest, entity, filter, own⟩ := c
  cases own with
  | select sorts skip limit =>
    obtain rfl | rfl := hkind
    · exact .select ⟨h.entity, h.projection, hcondition, h.sorts, h.skip, h.limit⟩
    · cases hselect
  | delete =>
    obtain rfl | rfl := hkind
    · cases hselect
    · obtain ⟨hskip, hlimit⟩ := h.uncounted rfl
      exact .delete ⟨h.entity, h.projection, hcondition, h.sorts.symm, hskip, hlimit⟩

/-- What is wrong with the earliest invalid argument of a chain of calls is the error of building
it, of preparing it and of executing it, before a store is called. If no argument is invalid, the
statement is built with exactly the clauses of the calls. A draft that takes the calls one after
the other builds the same. -/
theorem build_fails_first
    (hc : kind = .select [] 0 0 ∧ select fields calls = some c ∨
      kind = .delete ∧ delete fields calls = some c) :
    (Draft.ofCalls kind fields calls).build = c.build ∧
    (∀ e, c.build = .error e ↔ (Call.allFaults fields calls).head? = some e) ∧
    (∀ e, (Call.allFaults fields calls).head? = some e →
      c.prepare = .error e ∧ ∀ {σ : Type} (db : Database σ) (st : σ),
        c.execute db st = (.error e, st)) ∧
    (Call.allFaults fields calls = [] → ∃ s, c.build = .ok s ∧
      s.IsOfCalls fields calls kind ∧ c.prepare = .ok (Prepared.ofStatement s) ∧
      ∀ {σ : Type} (db : Database σ) (st : σ), c.execute db st = db.execute s .empty st) := by
  have hkind : kind = .select [] 0 0 ∨ kind = .delete := hc.imp And.left And.left
  have hcalls : ofCalls (ofFields kind fields) calls = some c := by
    rcases hc with ⟨rfl, hc⟩ | ⟨rfl, hc⟩ <;> exact hc
  refine ⟨Draft.build_ofCalls hkind hcalls, ?_⟩
  obtain ⟨hgathers, hselect⟩ := gathers_of_ofCalls hkind hcalls
  have hbuild : c.build = failFirst (Call.allFaults fields calls) c.stated :=
    hgathers.faults ▸ c.build_eq
  refine ⟨fun e => by rw [hbuild, failFirst_eq_error], ?_, ?_⟩
  · intro e he
    have herror : c.build = .error e := hbuild.trans (failFirst_eq_error.2 he)
    refine ⟨bind_eq_error.2 (.inl herror), fun db st => ?_⟩
    rw [execute, herror]
  · intro hnone
    have hok : c.build = .ok c.stated := hbuild.trans (failFirst_eq_ok.2 ⟨hnone, rfl⟩)
    refine ⟨c.stated, hok, hgathers.isOfCalls hkind hselect, ?_, fun db st => ?_⟩
    · exact bind_eq_ok.2 ⟨_, hok, rfl⟩
    · rw [execute, hok]

/-- The first of several invalid arguments is reported, and a valid delete keeps its tests. -/
theorem build_fails_first_choices :
    let calls := [Call.entity "T", .filter "x", .not, .predicate (.withinList []), .or "",
      .predicate (.compare .equal (.literal (.float .nan))), .orderBy "y", .direction .asc,
      .skip 1]
    let valid := [Call.entity "T", .filter "x", .not, .predicate (.within (.parameter "p")),
      .or "y", .predicate (.compare .less (.literal (.int 1)))]
    let error := QueryError.meaning (.noChoices "x")
    (∃ c, select ["a"] calls = some c ∧ c.build = .error error ∧
      (Draft.ofCalls (.select [] 0 0) ["a"] calls).build = .error error ∧
      c.prepare = .error error ∧
      ∀ (db : Database Memory.Records) st, c.execute db st = (.error error, st)) ∧
    ∃ c s, delete [] valid = some c ∧ c.build = .ok s ∧
      (Draft.ofCalls .delete [] valid).build = .ok s ∧ s.IsOfCalls [] valid .delete ∧
      c.prepare = .ok (Prepared.ofStatement s) := by
  intro calls valid error
  constructor
  · obtain ⟨c, hc⟩ : ∃ c, select ["a"] calls = some c := ⟨_, rfl⟩
    obtain ⟨hdraft, hbuild, hfailed, -⟩ := build_fails_first (.inl ⟨rfl, hc⟩)
    obtain ⟨hprepare, hexecute⟩ := hfailed error rfl
    have herror := (hbuild error).2 rfl
    exact ⟨c, hc, herror, hdraft.trans herror, hprepare, hexecute⟩
  · obtain ⟨c, hc⟩ : ∃ c, delete [] valid = some c := ⟨_, rfl⟩
    obtain ⟨hdraft, -, -, hvalid⟩ := build_fails_first (.inr ⟨rfl, hc⟩)
    obtain ⟨s, hbuild, hs, hprepare, -⟩ := hvalid rfl
    exact ⟨c, s, hc, hbuild, hdraft.trans hbuild, hs, hprepare⟩

end Chain

end StoreQuery

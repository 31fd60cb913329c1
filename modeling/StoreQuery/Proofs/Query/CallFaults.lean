import StoreQuery.Proofs.Query.ChainFaults

/-! # Faults of calls

What a row of calls gives can be read off the calls, without a chain: the tests, the sort keys and
the counts in their order, and what is wrong with the arguments. A chain that is described by legal
calls gathers exactly this.
-/

namespace StoreQuery

namespace Pending

def empty : Pending :=
  ⟨.and, "", false⟩

/-- A call names the field that the calls after it are about, or negates its test. -/
def after (p : Pending) : Call → Pending
  | .filter name | .and name | .orderBy name => ⟨.and, name, false⟩
  | .or name => ⟨.or, name, false⟩
  | .not => { p with negated := true }
  | _ => p

end Pending

namespace Call

/-- What is wrong with the argument of a call. -/
def faults (p : Pending) : Call → List QueryError
  | entity name => nameFaults .entity name
  | filter name | and name | or name => nameFaults .conditionField name
  | orderBy name => nameFaults .orderField name
  | predicate q => q.faults p.name
  | not | direction _ | skip _ | limit _ => []

def test (p : Pending) : Call → List (Connective × Test)
  | predicate q => [(p.connective, ⟨p.name, p.negated, q⟩)]
  | _ => []

def sort (p : Pending) : Call → List SortKey
  | direction d => [⟨p.name, d⟩]
  | _ => []

def entity? : Call → Option String
  | entity name => some name
  | _ => none

def skip? : Call → Option UInt64
  | skip n => some n
  | _ => none

def limit? : Call → Option UInt64
  | limit n => some n
  | _ => none

section Gather

variable {α : Type}

/-- What calls give one after the other. -/
def gather (f : Pending → Call → List α) (p : Pending) : List Call → List α
  | [] => []
  | x :: xs => f p x ++ gather f (p.after x) xs

theorem gather_eq_filterMap {f : Call → Option α} {p : Pending} {xs : List Call} :
    gather (fun _ x => (f x).toList) p xs = xs.filterMap f := by
  induction xs generalizing p with
  | nil => rfl
  | cons x xs ih =>
    rw [gather, ih]
    cases hx : f x with
    | none => rw [List.filterMap_cons_none hx, Option.toList_none, List.nil_append]
    | some => rw [List.filterMap_cons_some hx, Option.toList_some, List.singleton_append]

end Gather

/-- What is wrong with some fields, and with the arguments of calls, in their order. -/
def allFaults (fields : List String) (calls : List Call) : List QueryError :=
  fields.flatMap (nameFaults .projectedField) ++ gather faults .empty calls

end Call

/-- Whether a count is the one that is given, or zero where none is given. -/
inductive IsCount : List UInt64 → UInt64 → Prop where
  | default : IsCount [] 0
  | given (n : UInt64) : IsCount [n] n

namespace Place

def entities (c : Chain) : Place → List String
  | start => []
  | _ => [c.entity]

def faults : Place → List QueryError
  | testing _ name _ => nameFaults .conditionField name
  | sorting name => nameFaults .orderField name
  | _ => []

def skips (n : UInt64) : Place → List UInt64
  | skipped | paged => [n]
  | _ => []

def limits (n : UInt64) : Place → List UInt64
  | limited | paged => [n]
  | _ => []

theorem of_isOrderable {place : Place} (h : place.isOrderable = true) :
    (∀ c, place.entities c = [c.entity]) ∧ place.faults = [] ∧
      (∀ n, place.skips n = []) ∧ ∀ n, place.limits n = [] := by
  cases place with
  | named | tested | sorted => exact ⟨fun _ => rfl, rfl, fun _ => rfl, fun _ => rfl⟩
  | _ => cases h

end Place

namespace Chain

def skip (c : Chain) : UInt64 :=
  match c.kind with
  | .select _ skip _ => skip
  | .delete => 0

def limit (c : Chain) : UInt64 :=
  match c.kind with
  | .select _ _ limit => limit
  | .delete => 0

def isSelect (c : Chain) : Bool :=
  match c.kind with
  | .select .. => true
  | .delete => false

/-- Whether a chain is ready for the calls at a place: what was said last is what it waits for, no
later clause has begun, and only a select has come to the clauses that only a select has. -/
def IsReady (c : Chain) (p : Pending) : Place → Prop
  | .start => c.tests = [] ∧ c.sorts = []
  | .named => c.sorts = []
  | .testing o name negated =>
    p = ⟨o, name, negated⟩ ∧ c.sorts = [] ∧ (o = .and ∨ c.tests ≠ [])
  | .tested => c.tests ≠ [] ∧ c.sorts = []
  | .sorting name => p.name = name ∧ c.isSelect = true
  | .sorted | .skipped | .limited | .paged => c.isSelect = true

structure IsAt (c : Chain) (p : Pending) (place : Place) : Prop where
  ready : c.IsReady p place
  skip : IsCount (place.skips c.skip) c.skip
  limit : IsCount (place.limits c.limit) c.limit

/-- What is wrong with the calls that have led to a place. -/
def reported (place : Place) (c : Chain) : List QueryError :=
  (place.entities c).flatMap (nameFaults .entity) ++ (c.tests.flatMap (·.2.faults) ++
    (c.sorts.flatMap (fun s => nameFaults .orderField s.name) ++ place.faults))

variable {place place' : Place} {c c' : Chain} {p : Pending} {x : Call} {xs : List Call}

section Step

/-- A test changes nothing of a chain but its tests. -/
theorem addTest_eq (c : Chain) (o : Connective) (t : Test) :
    c.addTest o t = { c with filter := (c.addTest o t).filter } := by
  rw [addTest]
  split <;> rfl

theorem tests_addTest {o : Connective} {t : Test} (h : o = .and ∨ c.tests ≠ []) :
    (c.addTest o t).tests = c.tests ++ [(o, t)] := by
  obtain ⟨fields, entity, filter, kind⟩ := c
  cases filter with
  | none =>
    obtain rfl : o = .and := h.resolve_right (absurd rfl)
    rfl
  | some => rfl

theorem tests_step (h : c.IsReady p place) (hstep : Step place c x place' c') :
    c'.tests = c.tests ++ x.test p := by
  cases hstep with
  | predicate =>
    obtain ⟨rfl, -, htests⟩ := h
    exact tests_addTest htests
  | _ => exact (List.append_nil _).symm

theorem sorts_step (h : c.IsReady p place) (hstep : Step place c x place' c') :
    c'.sorts = c.sorts ++ x.sort p := by
  cases hstep with
  | predicate =>
    rw [addTest_eq]
    exact (List.append_nil _).symm
  | direction =>
    obtain ⟨rfl, -⟩ := h
    rfl
  | _ => exact (List.append_nil _).symm

theorem entities_step (hstep : Step place c x place' c') :
    place'.entities c' = place.entities c ++ x.entity?.toList := by
  cases hstep with
  | predicate =>
    rw [addTest_eq]
    rfl
  | orderBy h | skip h | limit h =>
    rw [(Place.of_isOrderable h).1]
    rfl
  | _ => rfl

theorem skips_step (hstep : Step place c x place' c') :
    place'.skips c'.skip = place.skips c.skip ++ x.skip?.toList := by
  cases hstep with
  | orderBy h | skip h | limit h =>
    rw [(Place.of_isOrderable h).2.2.1]
    rfl
  | _ => rfl

theorem limits_step (hstep : Step place c x place' c') :
    place'.limits c'.limit = place.limits c.limit ++ x.limit?.toList := by
  cases hstep with
  | orderBy h | skip h | limit h =>
    rw [(Place.of_isOrderable h).2.2.2]
    rfl
  | _ => rfl

theorem isReady_step (h : c.IsReady p place) (hstep : Step place c x place' c') :
    c'.IsReady (p.after x) place' := by
  have htests := tests_step h hstep
  have hsorts := sorts_step h hstep
  cases hstep with
  | entity => exact h.2
  | filter => exact ⟨rfl, h, .inl rfl⟩
  | and => exact ⟨rfl, h.2, .inl rfl⟩
  | or => exact ⟨rfl, h.2, .inr h.1⟩
  | not =>
    obtain ⟨rfl, hready⟩ := h
    exact ⟨rfl, hready⟩
  | predicate =>
    constructor
    · rw [htests]
      exact List.append_ne_nil_of_right_ne_nil _ nofun
    · rw [hsorts, h.2.1]
      rfl
  | orderBy => exact ⟨rfl, rfl⟩
  | _ => exact rfl

theorem isAt_step (h : c.IsAt p place) (hstep : Step place c x place' c') :
    c'.IsAt (p.after x) place' := by
  obtain ⟨hready, hskip, hlimit⟩ := h
  refine ⟨isReady_step hready hstep, ?_, ?_⟩
  · cases hstep with
    | orderBy h | limit h =>
      rw [(Place.of_isOrderable h).2.2.1] at hskip
      exact hskip
    | skip | limitSkip => exact .given _
    | predicate =>
      rw [addTest_eq]
      exact hskip
    | _ => exact hskip
  · cases hstep with
    | orderBy h | skip h =>
      rw [(Place.of_isOrderable h).2.2.2] at hlimit
      exact hlimit
    | limit | skipLimit => exact .given _
    | predicate =>
      rw [addTest_eq]
      exact hlimit
    | _ => exact hlimit

/-- A call reports what is wrong with its argument, after all that was reported before. -/
theorem reported_step (h : c.IsReady p place) (hstep : Step place c x place' c') :
    c'.reported place' = c.reported place ++ x.faults p := by
  have htests := tests_step h hstep
  have hsorts := sorts_step h hstep
  have hentities := entities_step hstep
  cases hstep with
  | entity =>
    simp only [reported, hentities, htests, hsorts, h.1, h.2]
    simp [Place.entities, Place.faults, Call.entity?, Call.test, Call.sort, Call.faults]
  | filter =>
    have hnone : c.sorts = [] := h
    simp [reported, hnone, Place.entities, Place.faults, Call.faults]
  | and | or =>
    simp [reported, h.2, Place.entities, Place.faults, Call.faults]
  | predicate =>
    obtain ⟨rfl, hnone, -⟩ := h
    simp only [reported, hentities, htests, hsorts, hnone]
    simp [Place.entities, Place.faults, Call.entity?, Call.test, Call.sort, Call.faults,
      Test.faults]
  | direction =>
    obtain ⟨rfl, -⟩ := h
    simp only [reported, hentities, htests, hsorts]
    simp [Place.entities, Place.faults, Call.entity?, Call.test, Call.sort, Call.faults]
  | orderBy hplace | skip hplace | limit hplace =>
    rw [reported, reported, hentities, htests, hsorts, (Place.of_isOrderable hplace).2.1]
    simp [Place.faults, Call.entity?, Call.test, Call.sort, Call.faults]
  | not | limitSkip | skipLimit => exact (List.append_nil _).symm

end Step

/-- What each call adds to something about a chain, calls add to it one after the other. -/
theorem gather_of_callAll {α : Type} (about : Place → Chain → List α)
    {f : Pending → Call → List α}
    (hstep : ∀ {place place' c c' p x}, IsReady c p place → Step place c x place' c' →
      about place' c' = about place c ++ f p x)
    (h : c.IsAt p place) (hcalls : callAll place c xs = some (place', c')) :
    about place' c' = about place c ++ Call.gather f p xs := by
  induction xs generalizing place c p with
  | nil =>
    cases hcalls
    exact (List.append_nil _).symm
  | cons x xs ih =>
    obtain ⟨next, d, hcall, hrest⟩ := exists_of_callAll_cons hcalls
    have hx := step_of_call hcall
    rw [ih (isAt_step h hx) hrest, hstep h.ready hx, Call.gather, List.append_assoc]

theorem eq_of_callAll {α : Type} (about : Chain → α)
    (hstep : ∀ {place place' c c' x}, Step place c x place' c' → about c' = about c)
    (hcalls : callAll place c xs = some (place', c')) : about c' = about c := by
  induction xs generalizing place c with
  | nil =>
    cases hcalls
    rfl
  | cons x xs ih =>
    obtain ⟨next, d, hcall, hrest⟩ := exists_of_callAll_cons hcalls
    exact (ih hrest).trans (hstep (step_of_call hcall))

theorem exists_isAt_of_callAll (h : c.IsAt p place)
    (hcalls : callAll place c xs = some (place', c')) : ∃ q, c'.IsAt q place' := by
  induction xs generalizing place c p with
  | nil =>
    cases hcalls
    exact ⟨p, h⟩
  | cons x xs ih =>
    obtain ⟨next, d, hcall, hrest⟩ := exists_of_callAll_cons hcalls
    exact ih (isAt_step h (step_of_call hcall)) hrest

theorem fields_step (hstep : Step place c x place' c') : c'.fields = c.fields := by
  cases hstep with
  | predicate => rw [addTest_eq]
  | _ => rfl

theorem isSelect_step (hstep : Step place c x place' c') : c'.isSelect = c.isSelect := by
  cases hstep with
  | predicate =>
    rw [addTest_eq]
    rfl
  | _ => rfl

/-- Whether a chain has gathered the clauses that calls give. -/
structure Gathers (c : Chain) (fields : List String) (calls : List Call) : Prop where
  projection : c.fields = fields
  entity : calls.filterMap Call.entity? = [c.entity]
  tests : c.tests = Call.gather Call.test .empty calls
  sorts : c.sorts = Call.gather Call.sort .empty calls
  skip : IsCount (calls.filterMap Call.skip?) c.skip
  limit : IsCount (calls.filterMap Call.limit?) c.limit
  uncounted : c.isSelect = false →
    calls.filterMap Call.skip? = [] ∧ calls.filterMap Call.limit? = []
  faults : c.faults = Call.allFaults fields calls

theorem IsReady.of_isFinal (h : c.IsReady p place) (hplace : place.isFinal = true) :
    place.entities c = [c.entity] ∧ place.faults = [] ∧
      (c.isSelect = false → place.skips c.skip = [] ∧ place.limits c.limit = []) := by
  cases place with
  | start | testing | sorting => cases hplace
  | named | tested => exact ⟨rfl, rfl, fun _ => ⟨rfl, rfl⟩⟩
  | _ =>
    refine ⟨rfl, rfl, fun hdelete => ?_⟩
    cases h.symm.trans hdelete

theorem isAt_ofFields {kind : ChainKind} (hkind : kind = .select [] 0 0 ∨ kind = .delete)
    (fields : List String) : (ofFields kind fields).IsAt .empty .start := by
  rcases hkind with rfl | rfl <;> exact ⟨⟨rfl, rfl⟩, .default, .default⟩

/-- A chain that calls describe has gathered what they give. -/
theorem gathers_of_ofCalls {kind : ChainKind} (hkind : kind = .select [] 0 0 ∨ kind = .delete)
    {fields : List String} {calls : List Call}
    (hc : ofCalls (ofFields kind fields) calls = some c) :
    c.Gathers fields calls ∧ c.isSelect = (ofFields kind fields).isSelect := by
  obtain ⟨place, hcalls, hplace⟩ := exists_of_ofCalls hc
  have hstart := isAt_ofFields hkind fields
  obtain ⟨_, hready, hskip, hlimit⟩ := exists_isAt_of_callAll hstart hcalls
  obtain ⟨hgiven, hfaults, huncounted⟩ := hready.of_isFinal hplace
  have hentity : place.entities c = calls.filterMap Call.entity? :=
    (gather_of_callAll (fun place c => place.entities c) (fun _ => entities_step) hstart
      hcalls).trans Call.gather_eq_filterMap
  have hskips : place.skips c.skip = calls.filterMap Call.skip? :=
    (gather_of_callAll (fun place c => place.skips c.skip) (fun _ => skips_step) hstart
      hcalls).trans Call.gather_eq_filterMap
  have hlimits : place.limits c.limit = calls.filterMap Call.limit? :=
    (gather_of_callAll (fun place c => place.limits c.limit) (fun _ => limits_step) hstart
      hcalls).trans Call.gather_eq_filterMap
  have hnone : (ofFields kind fields).tests = [] ∧ (ofFields kind fields).sorts = [] :=
    hstart.ready
  have htests := gather_of_callAll (fun _ => tests) tests_step hstart hcalls
  have hsorts := gather_of_callAll (fun _ => sorts) sorts_step hstart hcalls
  have hreported := gather_of_callAll reported reported_step hstart hcalls
  have hfields : c.fields = fields := eq_of_callAll Chain.fields fields_step hcalls
  refine ⟨⟨hfields, ?_, ?_, ?_, ?_, ?_, ?_, ?_⟩, eq_of_callAll isSelect isSelect_step hcalls⟩
  · rw [← hentity, hgiven]
  · rw [htests, hnone.1, List.nil_append]
  · rw [hsorts, hnone.2, List.nil_append]
  · rwa [← hskips]
  · rwa [← hlimits]
  · rwa [← hskips, ← hlimits]
  · rw [reported, reported, hgiven, hfaults, hnone.1, hnone.2] at hreported
    rw [faults, Call.allFaults, hfields]
    simpa [Place.entities, Place.faults] using hreported

end Chain

end StoreQuery

import StoreQuery.Proofs.Grammar.Mentions
import StoreQuery.Proofs.Parameters
import StoreQuery.Proofs.Store.Dispatch
import StoreQuery.Query.Chain
import StoreQuery.Store.Memory
import StoreQuery.Store.Prepared

/-! # The life of a prepared statement

Parameters get values, executions succeed or fail, and the statement may become one for a single
use, in any order and with any stores. All that one such operation can do is a step; what steps
keep holds of every run, from a statement that has just been prepared.
-/

namespace StoreQuery.Prepared

/-- What is done to a prepared statement. The stores are any ones, in any state. -/
inductive Operation : Type 1 where
  | bind (name : String) (value : Value)
  | singleUse
  | execute {σ : Type} (db : Database σ) (st : σ)
  | executeKeyed {σ : Type} (b : Bucket σ) (st : σ)

namespace Operation

def isExecution : Operation → Bool
  | execute .. | executeKeyed .. => true
  | bind .. | singleUse => false

def isSingleUse : Operation → Bool
  | singleUse => true
  | bind .. | execute .. | executeKeyed .. => false

end Operation

/-- What an operation gives: its error, if it fails, and the number of calls that stores got. -/
structure Response where
  error? : Option QueryError
  calls : Nat

def Response.ofExecution {σ κ β : Type} :
    Except QueryError (Outcome β) × Prepared × σ × List κ → Response × Prepared
  | (.ok _, after, _, calls) => (⟨none, calls.length⟩, after)
  | (.error e, after, _, calls) => (⟨some e, calls.length⟩, after)

/-- What an operation gives, and the statement after it. -/
def apply (q : Prepared) : Operation → Response × Prepared
  | .bind name value =>
    match q.supply name value with
    | (.ok (), after) => (⟨none, 0⟩, after)
    | (.error e, after) => (⟨some e, 0⟩, after)
  | .singleUse => (⟨none, 0⟩, q.singleUse)
  | .execute db st => Response.ofExecution (q.execute db.recorded (st, []))
  | .executeKeyed b st => Response.ofExecution (q.executeKeyed b.recorded (st, []))

/-- The statement after operations. -/
def after (q : Prepared) (ops : List Operation) : Prepared :=
  ops.foldl (fun q o => (q.apply o).2) q

/-- The number of executions that succeed. -/
def successes : Prepared → List Operation → Nat
  | _, [] => 0
  | q, o :: ops =>
    (if o.isExecution && (q.apply o).1.error?.isNone then 1 else 0) + successes (q.apply o).2 ops

inductive Step (q : Prepared) : Operation → Response → Prepared → Prop where
  | spent {o : Operation} (ho : o.isSingleUse = false) (hq : q.isSpent = true) :
      Step q o ⟨some .alreadyExecuted, 0⟩ q
  | unbound {name : String} {value : Value} {e : QueryError} (hq : q.isSpent = false) :
      Step q (.bind name value) ⟨some e, 0⟩ q
  | bound {name : String} {value : Value} (hq : q.isSpent = false)
      (hname : name ∈ q.parameters.names)
      (hvalue : q.reusable = false → q.parameters.value? name = none) :
      Step q (.bind name value) ⟨none, 0⟩
        { q with
          parameters := q.parameters.fill name value
          stage := stageOf (q.parameters.fill name value) }
  | singleUse : Step q .singleUse ⟨none, 0⟩ q.singleUse
  | unresolved {o : Operation} {n : String} (ho : o.isExecution = true) (hq : q.isSpent = false)
      (hn : n ∈ q.parameters.unresolved) : Step q o ⟨some (.unresolvedParameter n), 0⟩ q
  | failed {o : Operation} {e : QueryError} {calls : Nat} (ho : o.isExecution = true)
      (hq : q.isSpent = false) (hresolved : q.parameters.unresolved = [])
      (he : ∀ n, e = .unresolvedParameter n →
        n ∈ q.statement.mentions ∧ q.parameters.value? n = none) :
      Step q o ⟨some e, calls⟩ q
  | executed {o : Operation} {calls : Nat} (ho : o.isExecution = true) (hq : q.isSpent = false)
      (hresolved : q.parameters.unresolved = []) :
      Step q o ⟨none, calls⟩ { q with stage := .executed }

section Step

variable {q q' : Prepared} {o : Operation} {r : Response}

theorem step_bind (name : String) (value : Value) :
    Step q (.bind name value) (q.apply (.bind name value)).1 (q.apply (.bind name value)).2 := by
  rw [apply, supply]
  by_cases hq : q.isSpent = true
  · rw [if_pos hq]
    exact .spent rfl hq
  rw [if_neg hq]
  rw [Bool.not_eq_true] at hq
  by_cases hreusable : q.reusable = true
  · rw [if_pos hreusable, Parameters.replace_eq]
    by_cases hname : name ∈ q.parameters.names
    · rw [if_pos hname]
      exact .bound hq hname (by simp [hreusable])
    · rw [if_neg hname]
      exact .unbound hq
  · rw [if_neg hreusable, Parameters.supply_eq]
    by_cases hname : name ∈ q.parameters.names
    · rw [if_neg (not_not.2 hname)]
      by_cases hvalue : (q.parameters.value? name).isSome = true
      · rw [if_pos hvalue]
        exact .unbound hq
      · rw [if_neg hvalue]
        exact .bound hq hname fun _ => Option.not_isSome_iff_eq_none.1 hvalue
    · rw [if_pos hname]
      exact .unbound hq

theorem step_ofExecution {σ κ β : Type}
    {execute : Statement → Parameters → σ × List κ →
      Except QueryError (Outcome β) × σ × List κ}
    (hexecute : ∀ s p st n, (execute s p st).1 = .error (.unresolvedParameter n) →
      s.bind p = .error (.unresolvedParameter n)) (ho : o.isExecution = true) (st : σ) :
    Step q o (Response.ofExecution (q.executeBy execute (st, []))).1
      (Response.ofExecution (q.executeBy execute (st, []))).2 := by
  have hsingle : o.isSingleUse = false := by cases o <;> first | rfl | cases ho
  rw [executeBy, ready, Parameters.ensureResolved_eq]
  cases hq : q.isSpent with
  | true => exact .spent hsingle hq
  | false =>
    cases hresolved : q.parameters.unresolved with
    | cons n ns => exact .unresolved ho hq (hresolved ▸ List.mem_cons_self)
    | nil =>
      have h := hexecute q.statement q.parameters (st, [])
      rcases hrun : execute q.statement q.parameters (st, []) with ⟨result, after, calls⟩
      rw [hrun] at h
      simp only [Bool.false_eq_true, if_false]
      cases result with
      | ok outcome => exact .executed ho hq hresolved
      | error e =>
        refine .failed ho hq hresolved ?_
        rintro n rfl
        exact (Statement.lacks (h n rfl)).value?_eq_none

theorem step_apply (q : Prepared) (o : Operation) : Step q o (q.apply o).1 (q.apply o).2 := by
  cases o with
  | bind name value => exact step_bind name value
  | singleUse => exact .singleUse
  | execute db st =>
    refine step_ofExecution (fun s p st n h => ?_) rfl st
    obtain h | ⟨_, ⟨⟩⟩ := Database.execute_eq_error h
    exact h.bind_eq_error
  | executeKeyed b st =>
    refine step_ofExecution (fun s p st n h => ?_) rfl st
    obtain h | ⟨_, ⟨⟩⟩ := Bucket.execute_eq_error h
    exact h.bind_eq_error

theorem Step.eq_of_error {e : QueryError} (h : Step q o r q') (he : r.error? = some e) :
    q' = q := by
  cases h with
  | spent | unbound | unresolved | failed => rfl
  | bound | singleUse | executed => cases he

/-- Whether the stage is the one that the values of the parameters allow, and every parameter that
the statement mentions is registered. -/
structure Coherent (q : Prepared) : Prop where
  parsed_iff : q.stage = .parsed ↔ q.parameters.unresolved ≠ []
  mentions : ∀ n ∈ q.statement.mentions, n ∈ q.parameters.names

theorem Coherent.unresolved_eq_nil (h : q.Coherent) (hstage : q.stage ≠ .parsed) :
    q.parameters.unresolved = [] :=
  not_not.1 (mt h.parsed_iff.2 hstage)

theorem stageOf_eq_parsed {p : Parameters} : stageOf p = .parsed ↔ p.unresolved ≠ [] := by
  rw [stageOf]
  cases p.unresolved <;> simp

theorem Step.coherent (h : Step q o r q') (hq : q.Coherent) : q'.Coherent := by
  cases h with
  | spent | unbound | unresolved | failed => exact hq
  | singleUse => exact ⟨hq.parsed_iff, hq.mentions⟩
  | bound =>
    constructor
    · exact stageOf_eq_parsed
    · intro n hn
      simpa using hq.mentions n hn
  | executed _ _ hresolved =>
    constructor
    · simp [hresolved]
    · exact hq.mentions

theorem Step.reusable_eq_false (h : Step q o r q') (hq : q.reusable = false) :
    q'.reusable = false := by
  cases h <;> first | exact hq | rfl

/-- A statement for a single use keeps every value that it has. -/
theorem Step.value?_eq_some (h : Step q o r q') (hq : q.reusable = false) {n : String} {v : Value}
    (hv : q.parameters.value? n = some v) : q'.parameters.value? n = some v := by
  cases h with
  | spent | unbound | singleUse | unresolved | failed | executed => exact hv
  | @bound name _ _ _ hvalue =>
    have hne : n ≠ name := by
      rintro rfl
      rw [hvalue hq] at hv
      cases hv
    exact (Parameters.value?_fill_of_ne hne).trans hv

theorem isSpent_eq_true : q.isSpent = true ↔ q.reusable = false ∧ q.stage = .executed := by
  simp [isSpent]

/-- Nothing can be done any more to a statement that has had its single use. -/
theorem Step.of_isSpent (h : Step q o r q') (hq : q.isSpent = true) :
    q' = q ∧ (o.isSingleUse = false → r = ⟨some .alreadyExecuted, 0⟩) := by
  cases h with
  | spent => exact ⟨rfl, fun _ => rfl⟩
  | unbound hq' | bound hq' | unresolved _ hq' | failed _ hq' | executed _ hq' =>
    rw [hq] at hq'
    cases hq'
  | singleUse =>
    obtain ⟨hreusable, -⟩ := isSpent_eq_true.1 hq
    refine ⟨?_, nofun⟩
    rw [Prepared.singleUse, ← hreusable]

theorem Step.isSpent_of_success (h : Step q o r q') (hq : q.reusable = false)
    (ho : o.isExecution = true) (hr : r.error? = none) : q'.isSpent = true := by
  cases h with
  | executed => exact isSpent_eq_true.2 ⟨hq, rfl⟩
  | spent | unbound | unresolved | failed => cases hr
  | bound | singleUse => cases ho

theorem Step.error?_ne_unresolved (h : Step q o r q') (hq : q.Coherent)
    (hstage : q.stage ≠ .parsed) (ho : o.isExecution = true) (n : String) :
    r.error? ≠ some (.unresolvedParameter n) := by
  have hresolved := hq.unresolved_eq_nil hstage
  intro hr
  cases h with
  | spent | bound | singleUse | executed => cases hr
  | unbound => cases ho
  | unresolved _ _ hn =>
    rw [hresolved] at hn
    cases hn
  | failed _ _ _ he =>
    obtain ⟨hmentions, hvalue⟩ := he n (Option.some.inj hr)
    have hsome := Parameters.unresolved_eq_nil.1 hresolved n (hq.mentions n hmentions)
    rw [hvalue] at hsome
    cases hsome

theorem exists_bind (hq : q.Coherent) (hreusable : q.reusable = true) {n : String}
    (hn : n ∈ q.parameters.names) (v : Value) :
    ∃ q', q.bind n v = .ok q' ∧ q'.reusable = true ∧ q'.parameters.value? n = some v ∧
      (q.stage = .executed → q'.stage = .bound) := by
  have hspent : q.isSpent = false := by simp [isSpent, hreusable]
  have hsupply : q.supply n v = (.ok (), { q with
      parameters := q.parameters.fill n v
      stage := stageOf (q.parameters.fill n v) }) := by
    rw [supply, if_neg (by simp [hspent]), if_pos hreusable, Parameters.replace_eq, if_pos hn]
  refine ⟨_, Change.settled_eq_ok.2 hsupply, hreusable, Parameters.value?_fill_self hn, ?_⟩
  intro hstage
  have hresolved := hq.unresolved_eq_nil (by rw [hstage]; nofun)
  have hfill : (q.parameters.fill n v).unresolved = [] := by
    rw [Parameters.unresolved_eq_nil] at *
    intro m hm
    exact Parameters.isSome_value?_fill hn (hresolved m (Parameters.names_fill ▸ hm))
  show stageOf (q.parameters.fill n v) = .bound
  rw [stageOf, hfill]
  rfl

end Step

section Run

variable {q : Prepared} {ops ops' : List Operation}

theorem after_append : q.after (ops ++ ops') = (q.after ops).after ops' :=
  List.foldl_append

/-- What every step keeps holds after any operations. -/
theorem after_of_step {P : Prepared → Prop}
    (hstep : ∀ {q o r q'}, Step q o r q' → P q → P q') (hq : P q) : P (q.after ops) := by
  induction ops generalizing q with
  | nil => exact hq
  | cons o ops ih => exact ih (hstep (step_apply q o) hq)

theorem coherent_after (hq : q.Coherent) : (q.after ops).Coherent :=
  after_of_step Step.coherent hq

theorem reusable_after (hq : q.reusable = false) : (q.after ops).reusable = false :=
  after_of_step Step.reusable_eq_false hq

theorem value?_after {n : String} {v : Value} (hq : q.reusable = false)
    (hv : q.parameters.value? n = some v) : (q.after ops).parameters.value? n = some v := by
  have hafter : (q.after ops).reusable = false ∧ (q.after ops).parameters.value? n = some v := by
    apply after_of_step (P := fun q => q.reusable = false ∧ q.parameters.value? n = some v)
    · rintro q o r q' h ⟨hq, hv⟩
      exact ⟨h.reusable_eq_false hq, h.value?_eq_some hq hv⟩
    · exact ⟨hq, hv⟩
  exact hafter.2

theorem isSpent_after (hq : q.isSpent = true) : (q.after ops).isSpent = true :=
  after_of_step (P := fun q => q.isSpent = true) (fun h hq => (h.of_isSpent hq).1 ▸ hq) hq

theorem successes_of_isSpent (hq : q.isSpent = true) : q.successes ops = 0 := by
  induction ops with
  | nil => rfl
  | cons o ops ih =>
    obtain ⟨hsame, hresponse⟩ := (step_apply q o).of_isSpent hq
    rw [successes, hsame, ih, Nat.add_zero, if_neg]
    intro ho
    obtain ⟨ho, hnone⟩ := Bool.and_eq_true_iff.1 ho
    rw [hresponse (by cases o <;> first | rfl | cases ho)] at hnone
    cases hnone

theorem successes_le_one (hq : q.reusable = false) : q.successes ops ≤ 1 := by
  induction ops generalizing q with
  | nil => exact Nat.zero_le 1
  | cons o ops ih =>
    have hrest := ih ((step_apply q o).reusable_eq_false hq)
    rw [successes]
    split
    · next ho =>
      obtain ⟨ho, hnone⟩ := Bool.and_eq_true_iff.1 ho
      have hspent := (step_apply q o).isSpent_of_success hq ho (Option.isNone_iff_eq_none.1 hnone)
      simp [successes_of_isSpent hspent]
    · rwa [Nat.zero_add]

end Run

inductive IsInitial : Prepared → Prop where
  | ofText {text : String} {q : Prepared} (h : ofText text = .ok q) : IsInitial q
  | ofStatement (s : Statement) : IsInitial (ofStatement s)
  | ofChain {c : Chain} {s : Statement} (h : c.build = .ok s) : IsInitial (ofStatement s)

theorem coherent_ofStatement (s : Statement) : (ofStatement s).Coherent := by
  constructor
  · exact stageOf_eq_parsed
  · intro n hn
    exact Parameters.mem_names_ofNames.2 (mem_distinct.2 hn)

theorem ofText_eq_ok {text : String} {q : Prepared} (h : ofText text = .ok q) :
    ∃ s, (Grammar.parseStatement text).result = .ok s ∧ q = ofStatement s := by
  obtain ⟨s, hs, ⟨⟩⟩ := StoreQuery.bind_eq_ok.1 h
  refine ⟨s, hs, ?_⟩
  rw [Grammar.parameters_parseStatement hs, ofStatement]

theorem IsInitial.coherent {q : Prepared} (h : q.IsInitial) : q.Coherent := by
  cases h with
  | ofText h =>
    obtain ⟨s, -, rfl⟩ := ofText_eq_ok h
    exact coherent_ofStatement s
  | ofStatement s | ofChain => exact coherent_ofStatement _

structure Lifecycle (q : Prepared) : Prop where
  /-- The stage tells whether a parameter has no value. -/
  parsed_iff : q.stage = .parsed ↔ ∃ n ∈ q.parameters.names, q.parameters.value? n = none
  /-- At the other stages every parameter has one, and none is found to be unresolved. -/
  resolved : q.stage ≠ .parsed → (∀ n ∈ q.parameters.names, (q.parameters.value? n).isSome) ∧
    ∀ o n, o.isExecution = true → (q.apply o).1.error? ≠ some (.unresolvedParameter n)
  /-- An operation that fails changes nothing. -/
  unchanged : ∀ o e, (q.apply o).1.error? = some e → (q.apply o).2 = q
  /-- From the moment of `singleUse` on, a value that is set stays. -/
  keeps : ∀ ops ops' n v, (q.singleUse.after ops).parameters.value? n = some v →
    (q.singleUse.after (ops ++ ops')).parameters.value? n = some v
  /-- From then on one execution succeeds at most. -/
  once : ∀ ops, q.singleUse.successes ops ≤ 1
  /-- None does if there has been one before. -/
  never : q.stage = .executed → ∀ ops, q.singleUse.successes ops = 0
  /-- Once it is executed, nothing succeeds, and no store is called. -/
  spent : ∀ ops ops' o, (q.singleUse.after ops).stage = .executed → o.isSingleUse = false →
    ((q.singleUse.after (ops ++ ops')).apply o).1 = ⟨some .alreadyExecuted, 0⟩
  /-- A reusable statement takes any value for any of its parameters, also after an execution. -/
  rebinds : q.reusable = true → ∀ n ∈ q.parameters.names, ∀ v, ∃ q', q.bind n v = .ok q' ∧
    q'.reusable = true ∧ q'.parameters.value? n = some v ∧
      (q.stage = .executed → q'.stage = .bound)
  /-- A reusable statement whose parameters have values is executed by a database as often as it
  is asked to be. -/
  reexecutes : q.reusable = true → q.stage ≠ .parsed → ∀ (σ : Type) (db : Database σ) (st : σ),
    (q.execute db st).1 = (db.execute q.statement q.parameters st).1 ∧
      (q.execute db st).2.2 = (db.execute q.statement q.parameters st).2 ∧
      (q.execute db st).2.1.reusable = true
  /-- It is executed by a bucket as often, too. -/
  reexecutesKeyed : q.reusable = true → q.stage ≠ .parsed → ∀ (σ : Type) (b : Bucket σ) (st : σ),
    (q.executeKeyed b st).1 = (b.execute q.statement q.parameters st).1 ∧
      (q.executeKeyed b st).2.2 = (b.execute q.statement q.parameters st).2 ∧
      (q.executeKeyed b st).2.1.reusable = true

theorem executeBy_of_ready {σ α : Type} {q : Prepared}
    {execute : Statement → Parameters → σ → Except QueryError (Outcome α) × σ} {st : σ}
    (hreusable : q.reusable = true) (hresolved : q.parameters.unresolved = []) :
    (q.executeBy execute st).1 = (execute q.statement q.parameters st).1 ∧
      (q.executeBy execute st).2.2 = (execute q.statement q.parameters st).2 ∧
      (q.executeBy execute st).2.1.reusable = true := by
  have hready : q.ready = .ok () := by
    simp [ready, isSpent, hreusable, Parameters.ensureResolved_eq, hresolved]
  rw [executeBy, hready]
  rcases execute q.statement q.parameters st with ⟨_ | _, _⟩ <;> exact ⟨rfl, rfl, hreusable⟩

theorem Coherent.lifecycle {q : Prepared} (hq : q.Coherent) : q.Lifecycle where
  parsed_iff := by
    rw [hq.parsed_iff, ne_eq, Parameters.unresolved_eq_nil]
    simp
  resolved hstage := by
    constructor
    · exact Parameters.unresolved_eq_nil.1 (hq.unresolved_eq_nil hstage)
    · exact fun o n ho => (step_apply q o).error?_ne_unresolved hq hstage ho n
  unchanged o e := (step_apply q o).eq_of_error
  keeps ops ops' n v hv := by
    rw [after_append]
    exact value?_after (reusable_after rfl) hv
  once ops := successes_le_one rfl
  never hstage ops := successes_of_isSpent (isSpent_eq_true.2 ⟨rfl, hstage⟩)
  spent ops ops' o hstage ho := by
    have hspent := isSpent_eq_true.2 ⟨reusable_after rfl, hstage⟩
    rw [after_append]
    exact ((step_apply _ o).of_isSpent (isSpent_after hspent)).2 ho
  rebinds hreusable n hn v := exists_bind hq hreusable hn v
  reexecutes hreusable hstage _ _ _ :=
    executeBy_of_ready hreusable (hq.unresolved_eq_nil hstage)
  reexecutesKeyed hreusable hstage _ _ _ :=
    executeBy_of_ready hreusable (hq.unresolved_eq_nil hstage)

/-- Whatever has been done to a prepared statement, and by whatever stores, its life goes on by
these laws. -/
theorem lifecycle_after {q : Prepared} (hq : q.IsInitial) (ops : List Operation) :
    (q.after ops).Lifecycle :=
  (coherent_after hq.coherent).lifecycle

/-- An execution that is too early, one by a store that fails, one that succeeds, and one that is the
single use. -/
theorem lifecycle_after_get :
    let q := ofStatement (.get [.parameter "k"])
    let bucket := Memory.bucket "bucket" .all
    let get := Operation.executeKeyed bucket .empty
    let fail := Operation.executeKeyed { bucket with get := fun _ st => (.error "down", st) } .empty
    let bound := [get, .bind "k" (.int 1)]
    let rebound := bound ++ [fail, get, .bind "k" (.int 2)]
    let single := (q.after rebound).singleUse
    (q.apply get).1 = ⟨some (.unresolvedParameter "k"), 0⟩ ∧
    ((q.after bound).apply fail).1 = ⟨some (.store "down"), 1⟩ ∧
    ((q.after bound).apply fail).2 = q.after bound ∧
    (q.after (bound ++ [fail, get])).stage = .executed ∧ (q.after rebound).stage = .bound ∧
    (single.after [get]).stage = .executed ∧ single.successes [get] = 1 ∧
    single.successes [get, get] ≤ 1 ∧
    ((single.after [get]).apply get).1 = ⟨some .alreadyExecuted, 0⟩ ∧
    ((single.after [get]).apply (.bind "k" (.int 3))).1 = ⟨some .alreadyExecuted, 0⟩ ∧
    (q.after rebound).Lifecycle := by
  intro q bucket get fail bound rebound single
  have hbound : (q.after bound).Lifecycle := lifecycle_after (.ofStatement _) bound
  have hrebound : (q.after rebound).Lifecycle := lifecycle_after (.ofStatement _) rebound
  have hfail : ((q.after bound).apply fail).1 = ⟨some (.store "down"), 1⟩ := rfl
  have hexecuted : (single.after [get]).stage = .executed := by decide +kernel
  refine ⟨rfl, hfail, hbound.unchanged fail _ (congrArg Response.error? hfail), by decide +kernel,
    by decide +kernel, hexecuted, by decide +kernel, hrebound.once _, ?_, ?_, hrebound⟩
  · exact hrebound.spent [get] [] get hexecuted rfl
  · exact hrebound.spent [get] [] (.bind "k" (.int 3)) hexecuted rfl

end StoreQuery.Prepared

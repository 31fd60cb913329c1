import StoreQuery.Proofs.Query.Canonical
import StoreQuery.Proofs.Store.Dispatch

/-! # Features that reach a store

A statement uses features by its own clauses and by those of the selects that are nested in its
operands. Only its own are compared with what a store supports, and of these all are. What a nested
select of its condition uses reaches the store unseen.
-/

namespace StoreQuery

section Features

variable (deep : Bool)

mutual

/-- The features that an operand uses, if those of nested selects count. -/
def Operand.features : Operand → List Capability
  | .literal _ | .parameter _ | .document _ => []
  | .list items => Operand.featuresOfItems items
  | .nested s => if deep then s.features else []

def Operand.featuresOfItems : List Operand → List Capability
  | [] => []
  | x :: xs => x.features ++ Operand.featuresOfItems xs

/-- The features that a condition uses. Those of nested selects count if they are wanted. -/
def Condition.features : Condition → List Capability
  | .compare _ _ v => v.features
  | .within _ v => v.features
  | .between _ low high => low.features ++ high.features
  | .all cs | .any cs => .logic :: Condition.featuresOfItems cs
  | .not c => .logic :: c.features

def Condition.featuresOfItems : List Condition → List Capability
  | [] => []
  | c :: cs => c.features ++ Condition.featuresOfItems cs

def Condition.featuresOfClause : Option Condition → List Capability
  | none => []
  | some c => c.features

def Select.features : Select → List Capability
  | ⟨_, _, condition, sorts, skip, limit⟩ =>
    (if sorts.isEmpty then [] else [.ordering]) ++
      (if 0 < skip || 0 < limit then [.paging] else []) ++ Condition.featuresOfClause condition

end

def Payload.features : Payload → List Capability
  | assignments conditions => Condition.featuresOfItems deep conditions
  | document v => v.features deep

/-- The features that a statement uses. Those of nested selects count if they are wanted. -/
def Statement.features (s : Statement) : List Capability :=
  (match s with
    | .select s => s.features deep
    | .insert s => s.payload.features deep
    | .update s => s.payload.features deep
    | .delete s => Condition.featuresOfClause deep s.condition
    | .get keys | .del keys => Operand.featuresOfItems deep keys
    | .put s => s.key.features deep ++ s.value.features deep) ++
  if s.ttl?.isSome then [.ttl] else []

end Features

variable {deep : Bool} {p : Parameters} {f : Capability}

theorem Operand.featuresOfItems_eq {xs : List Operand} :
    Operand.featuresOfItems deep xs = xs.flatMap (Operand.features deep) := by
  induction xs with
  | nil => rfl
  | cons x xs ih => rw [Operand.featuresOfItems, ih, List.flatMap_cons]

theorem Condition.featuresOfItems_eq {cs : List Condition} :
    Condition.featuresOfItems deep cs = cs.flatMap (Condition.features deep) := by
  induction cs with
  | nil => rfl
  | cons c cs ih => rw [Condition.featuresOfItems, ih, List.flatMap_cons]

theorem Condition.features_ofParts {o : Connective} {cs : List Condition} :
    (o.ofParts cs).features deep = .logic :: cs.flatMap (Condition.features deep) := by
  rw [← Condition.featuresOfItems_eq]
  cases o <;> rfl

theorem Select.features_eq (s : Select) :
    s.features deep = (if s.sorts.isEmpty then [] else [.ordering]) ++
      (if s.isPaged then [.paging] else []) ++ Condition.featuresOfClause deep s.condition := by
  cases s
  rfl

section Bind

theorem Operand.features_ofValue (v : Value) : (Operand.ofValue v).features deep = [] := by
  apply Operand.forall_ofValue (P := fun v => v.features deep = [])
  · exact fun _ => rfl
  · exact fun _ => rfl
  · intro xs h
    exact Operand.featuresOfItems_eq.trans (List.flatMap_eq_nil_iff.2 h)

theorem flatMap_eq_of_forall₂ {α β : Type} {g : α → List β} {xs ys : List α}
    (h : List.Forall₂ (fun x y => g y = g x) xs ys) : ys.flatMap g = xs.flatMap g := by
  induction h with
  | nil => rfl
  | cons hxy _ ih => rw [List.flatMap_cons, List.flatMap_cons, hxy, ih]

theorem closed_features_eq (deep : Bool) (p : Parameters) (names : List String) :
    ClosedUnderBinding p names (fun v w => w.features deep = v.features deep)
      (fun c d => d.features deep = c.features deep)
      (fun s t => t.features deep = s.features deep) where
  literal _ := rfl
  document _ := rfl
  parameter _ _ v _ := Operand.features_ofValue v
  list xs ys h := by
    show Operand.featuresOfItems deep ys = Operand.featuresOfItems deep xs
    rw [Operand.featuresOfItems_eq, Operand.featuresOfItems_eq, flatMap_eq_of_forall₂ h]
  nested s t h := by rw [Operand.features, Operand.features, h]
  compare _ _ _ _ h := h
  within _ _ _ h _ := h
  between _ v w v' w' h h' := by rw [Condition.features, Condition.features, h, h']
  parts _ _ _ h := by
    rw [Condition.features_ofParts, Condition.features_ofParts, flatMap_eq_of_forall₂ h]
  not _ _ h := by rw [Condition.features, Condition.features, h]
  select _ _ _ _ _ _ _ h := by
    cases h with
    | none => rfl
    | some h =>
      simp only [Select.features, Condition.featuresOfClause]
      rw [h]

theorem Payload.Rel.features_eq {x y : Payload}
    (h : Payload.Rel (fun v w => w.features deep = v.features deep)
      (fun c d => d.features deep = c.features deep) x y) :
    y.features deep = x.features deep := by
  cases h with
  | assignments h =>
    rw [features, features, Condition.featuresOfItems_eq, Condition.featuresOfItems_eq,
      flatMap_eq_of_forall₂ h]
  | document h => exact h

theorem Payload.features_bind {x y : Payload} (hy : x.bind p = .ok y) :
    y.features deep = x.features deep :=
  ((closed_features_eq deep p x.mentions).rel_payload (List.Subset.refl _) hy).features_eq

theorem Statement.features_bind {s t : Statement} (ht : s.bind p = .ok t) :
    t.features deep = s.features deep := by
  have hrel := (closed_features_eq deep p s.mentions).rel_statement (List.Subset.refl _) ht
  unfold features
  congr 1
  · cases hrel with
    | select h => exact h
    | insert h | update h => exact h.features_eq
    | delete h =>
      cases h with
      | none => rfl
      | some h => exact h
    | get h | del h =>
      simp only [Operand.featuresOfItems_eq]
      exact flatMap_eq_of_forall₂ h
    | put hk hv =>
      simp only [hk, hv]
  · cases hrel <;> rfl

end Bind

section Read

mutual

theorem Operand.features_of_read : ∀ (v : Operand) (w : Value), v.read = .ok w →
    v.features deep = []
  | .literal _, _, _ | .document _, _, _ => rfl
  | .parameter _, _, h | .nested _, _, h => by cases h
  | .list items, _, h => by
    rw [Operand.read] at h
    split at h
    · next hitems => exact Operand.features_of_readItems items _ hitems
    · cases h

theorem Operand.features_of_readItems : ∀ (vs : List Operand) (ws : List Value),
    Operand.readItems vs = .ok ws → Operand.featuresOfItems deep vs = []
  | [], _, _ => rfl
  | v :: vs, _, h => by
    rw [Operand.readItems] at h
    split at h
    · cases h
    · next hv =>
      split at h
      · cases h
      · next hvs =>
        exact List.append_eq_nil_iff.2
          ⟨v.features_of_read _ hv, Operand.features_of_readItems vs _ hvs⟩

end

theorem Entity.features_of_ofAssignments {name : String} {cs : List Condition} {record : Entity}
    (h : Entity.ofAssignments name cs = .ok record) : Condition.featuresOfItems deep cs = [] := by
  rw [Condition.featuresOfItems_eq, List.flatMap_eq_nil_iff]
  obtain ⟨ms, hms, -⟩ := Entity.ofAssignments_eq_ok.1 h
  clear h
  induction hms with
  | nil => exact List.forall_mem_nil _
  | cons hassigns _ ih =>
    obtain ⟨hread⟩ := hassigns
    exact List.forall_mem_cons.2 ⟨Operand.features_of_read _ _ hread, ih⟩

theorem Payload.features_of_record {entity : String} {x : Payload} {record : Entity}
    (h : x.record entity = .ok record) : x.features deep = [] := by
  cases x with
  | assignments cs => exact Entity.features_of_ofAssignments h
  | document v =>
    obtain ⟨w, hw, -⟩ := bind_eq_ok.1 h
    exact v.features_of_read w hw

theorem Operand.HasValue.features_eq_nil {v : Operand} {w : Value} (h : v.HasValue p w) :
    v.features deep = [] := by
  obtain ⟨bound, hbound, hw⟩ := h
  rw [← (closed_features_eq deep p v.mentions).rel_operand v bound (List.Subset.refl _) hbound]
  exact bound.features_of_read w hw

end Read

section Own

mutual

theorem Operand.features_false : ∀ v : Operand, v.features false = []
  | .literal _ | .parameter _ | .document _ | .nested _ => rfl
  | .list items => Operand.featuresOfItems_false items

theorem Operand.featuresOfItems_false :
    ∀ vs : List Operand, Operand.featuresOfItems false vs = []
  | [] => rfl
  | v :: vs => List.append_eq_nil_iff.2 ⟨v.features_false, Operand.featuresOfItems_false vs⟩

end

/-- A condition by itself uses logic where it combines others, and nothing else. -/
theorem Condition.mem_features_false {c : Condition} :
    f ∈ c.features false ↔ f = .logic ∧ c.isLogical = true := by
  induction c using Condition.induction_on_parts with
  | leaf c hc =>
    rw [hc]
    cases c with
    | compare | within | between => simp [features, Operand.features_false]
    | all | any | not => cases hc
  | parts o cs ih =>
    have hlogical : (o.ofParts cs).isLogical = true := by cases o <;> rfl
    rw [features_ofParts, List.mem_cons, List.mem_flatMap, hlogical]
    constructor
    · rintro (h | ⟨c, hc, h⟩)
      · exact ⟨h, rfl⟩
      · exact ⟨((ih c hc).1 h).1, rfl⟩
    · exact fun h => Or.inl h.1
  | not c ih =>
    rw [features, List.mem_cons, ih]
    constructor
    · rintro (h | h)
      · exact ⟨h, rfl⟩
      · exact ⟨h.1, rfl⟩
    · exact fun h => Or.inl h.1

def Statement.operands : Statement → List Operand
  | get keys | del keys => keys
  | put s => [s.key, s.value]
  | _ => []

theorem Condition.mem_featuresOfClause {c : Option Condition} :
    f ∈ Condition.featuresOfClause deep c ↔ ∃ d, c = some d ∧ f ∈ d.features deep := by
  cases c <;> simp [featuresOfClause]

theorem Statement.ttl_mem_requires {s : Statement} (h : s.ttl?.isSome = true) :
    .ttl ∈ s.requires := by
  simp [requires, h]

theorem Statement.mem_features {s : Statement} (h : f ∈ s.features deep) :
    f ∈ s.requires ∨ (∃ c, s.condition? = some c ∧ f ∈ c.features deep) ∨
      (∃ x, s.payload? = some x ∧ f ∈ x.features deep) ∨
        ∃ v ∈ s.operands, f ∈ v.features deep := by
  rcases List.mem_append.1 h with h | h
  · cases s with
    | select s =>
      change f ∈ s.features deep at h
      rw [Select.features_eq] at h
      rcases List.mem_append.1 h with h | h
      · left
        exact List.mem_append_left _ (List.mem_append_left _ h)
      · exact Or.inr (Or.inl (Condition.mem_featuresOfClause.1 h))
    | insert s | update s => exact Or.inr (Or.inr (Or.inl ⟨s.payload, rfl, h⟩))
    | delete s => exact Or.inr (Or.inl (Condition.mem_featuresOfClause.1 h))
    | get keys | del keys =>
      change f ∈ Operand.featuresOfItems deep keys at h
      rw [Operand.featuresOfItems_eq, List.mem_flatMap] at h
      exact Or.inr (Or.inr (Or.inr h))
    | put s =>
      right; right; right
      simpa [operands] using h
  · left
    split at h
    · next httl =>
      cases List.mem_singleton.1 h
      exact ttl_mem_requires httl
    · cases h

theorem Statement.mem_requires_of_condition {s : Statement} {c : Condition}
    (hc : s.condition? = some c) (h : f ∈ c.features false) : f ∈ s.requires := by
  obtain ⟨rfl, hlogical⟩ := Condition.mem_features_false.1 h
  simp [requires, hc, hlogical]

theorem Statement.mem_requires {s : Statement} (h : f ∈ s.features false)
    (hpayload : ∀ x, s.payload? = some x → x.features false = []) : f ∈ s.requires := by
  rcases mem_features h with h | ⟨c, hc, h⟩ | ⟨x, hx, h⟩ | ⟨v, -, h⟩
  · exact h
  · exact mem_requires_of_condition hc h
  · rw [hpayload x hx] at h
    cases h
  · rw [v.features_false] at h
    cases h

end Own

section Call

variable {s : Statement}

/-- When a database is asked for something, the rest of what the statement uses is used by its
condition. -/
theorem Statement.AsksDatabase.mem_features {call : DatabaseCall} (hasks : s.AsksDatabase p call)
    (h : f ∈ s.features deep) :
    f ∈ s.requires ∨ ∃ c, s.condition? = some c ∧ f ∈ c.features deep := by
  rcases Statement.mem_features h with h | h | ⟨x, hx, h⟩ | ⟨v, hv, h⟩
  · exact Or.inl h
  · exact Or.inr h
  · cases hasks with
    | insert hbound hrecord | update hbound hrecord =>
      cases hx
      rw [← Payload.features_bind hbound, Payload.features_of_record hrecord] at h
      cases h
    | select | delete => cases hx
  · cases hasks <;> cases hv

theorem forall_mem_features_eq_nil {keys : List Operand} {values : List Value}
    (h : List.Forall₂ (Operand.HasValue p) keys values) : ∀ v ∈ keys, v.features deep = [] :=
  forall_mem_right_of_forall₂ (fun _ _ hv => Operand.HasValue.features_eq_nil hv) h.flip

theorem Statement.AsksBucket.mem_features {call : BucketCall} (hasks : s.AsksBucket p call)
    (h : f ∈ s.features deep) : f ∈ s.requires := by
  rcases Statement.mem_features h with h | ⟨c, hc, h⟩ | ⟨x, hx, h⟩ | ⟨v, hv, h⟩
  · exact h
  · cases hasks <;> cases hc
  · cases hasks <;> cases hx
  · have hnil : v.features deep = [] := by
      cases hasks with
      | get hkeys | del hkeys => exact forall_mem_features_eq_nil hkeys v hv
      | put hkey hvalue =>
        rcases List.mem_pair.1 hv with rfl | rfl
        · exact hkey.features_eq_nil
        · exact hvalue.features_eq_nil
    rw [hnil] at h
    cases h

end Call

/-- A statement that requires what a store does not support is refused for such a feature. -/
theorem Statement.Refused.of_unsupported {keyed : Bool} {c : Capabilities} {s : Statement}
    {e : QueryError} (h : s.Refused keyed c p e) (hkind : s.isKeyed = keyed) (hf : f ∈ s.requires)
    (hsupports : c.supports f = false) :
    ∃ g ∈ s.requires, c.supports g = false ∧ e = .unsupported g := by
  cases h with
  | family hne => exact absurd hkind hne
  | @feature before after g _ hrequires _ hg =>
    exact ⟨g, hrequires ▸ List.mem_append_right _ List.mem_cons_self, hg, rfl⟩
  | binding _ hall | reading _ hall =>
    rw [hall f hf] at hsupports
    cases hsupports

/-- What an execution by a store that keeps its calls owes to the features that the store supports.
If the store is asked for something, it supports all that the statement with its values uses by
itself, and all that nested selects use if there is no condition. If it does not support something
that the statement uses by itself, it is asked for nothing; the error names such a feature, unless
it is in a payload that is no record. -/
structure Statement.KeepsToFeatures {σ κ β : Type} (keyed : Bool) (c : Capabilities)
    (p : Parameters) (s : Statement) (st : σ) (calls : List κ)
    (execution : Except QueryError (Outcome β) × σ × List κ) : Prop where
  supported : execution.2.2 ≠ calls → ∃ t, s.bind p = .ok t ∧
    (∀ f ∈ t.features false, c.supports f = true) ∧
      (s.condition? = none → ∀ f ∈ t.features true, c.supports f = true)
  refused : s.isKeyed = keyed → ∀ f ∈ s.features false, c.supports f = false →
    ∃ e, execution = (.error e, st, calls) ∧
      ((∀ x, s.payload? = some x → x.features false = []) →
        ∃ g ∈ s.requires, c.supports g = false ∧ e = .unsupported g)

section Execute

variable {σ τ κ β : Type} {s : Statement}

theorem keepsToFeatures_of_call {keyed : Bool} {c : Capabilities} {st : σ} {calls : List κ}
    {perform : κ → Except QueryError (Outcome β) × σ} {call : Except QueryError κ}
    (herror : ∀ e, call = .error e ↔ s.Refused keyed c p e)
    (hok : ∀ k, call = .ok k → ∃ t, s.prepareFor keyed c p = .ok t ∧
      ∀ deep, ∀ f ∈ s.features deep,
        f ∈ s.requires ∨ ∃ d, s.condition? = some d ∧ f ∈ d.features deep) :
    s.KeepsToFeatures keyed c p st calls (atMostOneCall perform st calls call) := by
  cases call with
  | error e =>
    constructor
    · exact fun h => absurd rfl h
    · intro hkind f hf hsupports
      refine ⟨e, rfl, fun hpayload => ?_⟩
      exact ((herror e).1 rfl).of_unsupported hkind (Statement.mem_requires hf hpayload) hsupports
  | ok k =>
    obtain ⟨t, ht, hfeatures⟩ := hok k rfl
    obtain ⟨-, hmissing, ht⟩ := Statement.prepareFor_eq_ok.1 ht
    rw [Statement.missing?_eq_none] at hmissing
    have hown : ∀ f ∈ s.features false, c.supports f = true := by
      intro f hf
      rcases hfeatures false f hf with h | ⟨d, hd, h⟩
      · exact hmissing f h
      · exact hmissing f (Statement.mem_requires_of_condition hd h)
    constructor
    · intro _
      refine ⟨t, ht, ?_, ?_⟩
      · rwa [Statement.features_bind ht]
      · intro hcondition f hf
        rw [Statement.features_bind ht] at hf
        rcases hfeatures true f hf with h | ⟨d, hd, -⟩
        · exact hmissing f h
        · rw [hcondition] at hd
          cases hd
    · intro _ f hf hsupports
      rw [hown f hf] at hsupports
      cases hsupports

/-- Executing a statement keeps to the features that a store supports, as far as the statement uses
them by itself. -/
theorem execute_keepsToFeatures (db : Database σ) (b : Bucket τ) (s : Statement) (p : Parameters)
    (st : σ) (st' : τ) (calls : List DatabaseCall) (calls' : List BucketCall) :
    s.KeepsToFeatures false db.capabilities p st calls (db.recorded.execute s p (st, calls)) ∧
      s.KeepsToFeatures true b.capabilities p st' calls'
        (b.recorded.execute s p (st', calls')) := by
  constructor
  · rw [Database.execute_recorded]
    apply keepsToFeatures_of_call
    · exact fun e => Statement.databaseCall_eq_error
    · intro call hcall
      have hasks := Statement.asksDatabase_of_call hcall
      rw [Statement.databaseCall_eq] at hcall
      obtain ⟨t, ht, -⟩ := bind_eq_ok.1 hcall
      exact ⟨t, ht, fun deep f hf => hasks.mem_features hf⟩
  · rw [Bucket.execute_recorded]
    apply keepsToFeatures_of_call
    · exact fun e => Statement.bucketCall_eq_error
    · intro call hcall
      have hasks := Statement.asksBucket_of_call hcall
      rw [Statement.bucketCall_eq] at hcall
      obtain ⟨t, ht, -⟩ := bind_eq_ok.1 hcall
      exact ⟨t, ht, fun deep f hf => Or.inl (hasks.mem_features hf)⟩

theorem execute_keepsToFeatures_ordering :
    let capabilities := { Capabilities.all with ordering := false }
    (Memory.database "database" capabilities).recorded.execute
        (.select ⟨"T", [], none, [⟨"a", .desc⟩], 0, 0⟩) (.ofNames []) (.empty, []) =
      (.error (.unsupported .ordering), .empty, []) := by
  intro capabilities
  obtain ⟨hdatabase, -⟩ := execute_keepsToFeatures (Memory.database "database" capabilities)
    (Memory.bucket "bucket" .none) (.select ⟨"T", [], none, [⟨"a", .desc⟩], 0, 0⟩) (.ofNames [])
    .empty .empty [] []
  obtain ⟨e, hrun, herror⟩ := hdatabase.refused rfl .ordering (by decide) rfl
  obtain ⟨g, hg, -, rfl⟩ := herror nofun
  cases List.mem_singleton.1 hg
  exact hrun

end Execute

/-- What a nested select uses reaches a store that does not support it. -/
theorem not_execute_keepsToNestedFeatures :
    let capabilities := { Capabilities.all with ordering := false }
    let s : Select := ⟨"T", [], some (.within "a" (.nested
      ⟨"U", ["b"], none, [⟨"b", .asc⟩], 0, 0⟩)), [], 0, 0⟩
    (Grammar.parseStatement
        "select * from T where a in (select b from U order by b asc)").result = .ok (.select s) ∧
      .ordering ∈ (Statement.select s).features true ∧
        capabilities.supports .ordering = false ∧
          ∃ after, (Memory.database "database" capabilities).recorded.execute (.select s)
            (.ofNames []) (.empty, []) = (.ok (.stream []), after, [.select s]) := by
  intro capabilities s
  have htext : (Statement.select s).render =
      "select * from T where a in (select b from U order by b asc)" := by
    decide +kernel
  have hreadable : (Statement.select s).Readable := by
    simp [s, Statement.Readable, Condition.ClauseReadable, Condition.Readable, Operand.Readable,
      Select.Readable, Operand.isChoices]
  rw [← htext]
  exact ⟨Grammar.parseStatement_of_readable hreadable, by decide, rfl, _, rfl⟩

end StoreQuery

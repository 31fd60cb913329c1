import StoreQuery.Proofs.CommandLine.Formatting
import StoreQuery.Proofs.Query.ChainReading
import StoreQuery.Proofs.Query.Choices

/-! # Normal conditions

A condition is normal if it is flat and every `in` has choices, here and in the selects that are
nested in it. Texts and chains give nothing else, the operations on conditions keep it, and so does
binding, which puts its conjunctions and disjunctions together without joining their parts.
-/

namespace StoreQuery

open Grammar

mutual

def Operand.IsNormal : Operand → Prop
  | .literal _ | .parameter _ | .document _ => True
  | .list items => Operand.AllNormal items
  | .nested s => s.IsNormal

def Operand.AllNormal : List Operand → Prop
  | [] => True
  | x :: xs => x.IsNormal ∧ Operand.AllNormal xs

/-- Whether a condition compares by comparisons, has only `in`s with choices, and has neither a
conjunction nor a disjunction of fewer than two parts or with a part of its own kind. -/
def Condition.IsNormal : Condition → Prop
  | .compare n o v => (Condition.compare n o v).operator.isComparison = true ∧ v.IsNormal
  | .within _ v => v.isChoices = true ∧ v.IsNormal
  | .between _ low high => low.IsNormal ∧ high.IsNormal
  | .all cs => 2 ≤ cs.length ∧ (∀ c ∈ cs, c.operator ≠ .and) ∧ Condition.AllNormal cs
  | .any cs => 2 ≤ cs.length ∧ (∀ c ∈ cs, c.operator ≠ .or) ∧ Condition.AllNormal cs
  | .not c => c.IsNormal

def Condition.AllNormal : List Condition → Prop
  | [] => True
  | c :: cs => c.IsNormal ∧ Condition.AllNormal cs

def Condition.ClauseNormal : Option Condition → Prop
  | none => True
  | some c => c.IsNormal

def Select.IsNormal : Select → Prop
  | ⟨_, _, condition, _, _, _⟩ => Condition.ClauseNormal condition

end

def Payload.IsNormal : Payload → Prop
  | assignments cs => ∀ c ∈ cs, c.IsNormal
  | document v => v.IsNormal

/-- Whether all conditions of a statement are normal, those of nested selects included. -/
def Statement.IsNormal : Statement → Prop
  | select s => s.IsNormal
  | insert s => s.payload.IsNormal
  | update s => s.payload.IsNormal
  | delete s => Condition.ClauseNormal s.condition
  | get keys | del keys => ∀ k ∈ keys, k.IsNormal
  | put s => s.key.IsNormal ∧ s.value.IsNormal

theorem Operand.allNormal_iff {xs : List Operand} :
    Operand.AllNormal xs ↔ ∀ x ∈ xs, x.IsNormal := by
  induction xs with
  | nil => simp [Operand.AllNormal]
  | cons x xs ih => simp [Operand.AllNormal, ih]

theorem Condition.allNormal_iff {cs : List Condition} :
    Condition.AllNormal cs ↔ ∀ c ∈ cs, c.IsNormal := by
  induction cs with
  | nil => simp [Condition.AllNormal]
  | cons c cs ih => simp [Condition.AllNormal, ih]

theorem Condition.isNormal_ofParts {o : Connective} {cs : List Condition} :
    (o.ofParts cs).IsNormal ↔
      2 ≤ cs.length ∧ (∀ c ∈ cs, c.operator ≠ o.operator) ∧ ∀ c ∈ cs, c.IsNormal := by
  cases o <;>
    simp only [Connective.ofParts, Condition.IsNormal, Condition.allNormal_iff, Connective.operator]

theorem Condition.flat_isNormal : Condition.Flat Condition.IsNormal :=
  fun _ _ => isNormal_ofParts

section Forming

variable {n : String} {c d : Condition} {cs : List Condition} {v : Operand}

theorem Condition.isNormal_of_withinOf (hv : v.IsNormal) (h : Condition.withinOf n v = .ok c) :
    c.IsNormal := by
  rw [Condition.withinOf] at h
  split at h
  · next hchoices =>
    cases h
    exact ⟨hchoices, hv⟩
  · cases h

theorem Condition.isNormal_of_compareBy {o : Operator} (hv : v.IsNormal)
    (h : Condition.compareBy n o v = .ok c) : c.IsNormal := by
  unfold Condition.compareBy at h
  split at h
  · cases h
    exact ⟨rfl, hv⟩
  · cases h

theorem Condition.isNormal_of_betweenOf {vs : List Operand} (hvs : ∀ v ∈ vs, v.IsNormal)
    (h : Condition.betweenOf n vs = .ok c) : c.IsNormal := by
  unfold Condition.betweenOf at h
  split at h
  · cases h
    rw [List.forall_mem_cons, List.forall_mem_singleton] at hvs
    exact hvs
  · cases h

end Forming

section Texts

mutual

theorem Operand.isNormal_of_readable : ∀ v : Operand, v.Readable → v.IsNormal
  | .literal _, _ | .parameter _, _ | .document _, _ => trivial
  | .list xs, h => Operand.allNormal_of_readable xs h.2
  | .nested s, h => Select.isNormal_of_readable s h

theorem Operand.allNormal_of_readable :
    ∀ xs : List Operand, Operand.AllReadable xs → Operand.AllNormal xs
  | [], _ => trivial
  | x :: xs, h => ⟨Operand.isNormal_of_readable x h.1, Operand.allNormal_of_readable xs h.2⟩

theorem Condition.isNormal_of_readable : ∀ c : Condition, c.Readable → c.IsNormal
  | .compare _ _ v, h => ⟨rfl, Operand.isNormal_of_readable v h.2⟩
  | .within _ v, h => ⟨h.2.1, Operand.isNormal_of_readable v h.2.2⟩
  | .between _ low high, h =>
    ⟨Operand.isNormal_of_readable low h.2.1, Operand.isNormal_of_readable high h.2.2⟩
  | .all cs, h | .any cs, h => ⟨h.1, h.2.1, Condition.allNormal_of_readable cs h.2.2⟩
  | .not c, h => Condition.isNormal_of_readable c h

theorem Condition.allNormal_of_readable :
    ∀ cs : List Condition, Condition.AllReadable cs → Condition.AllNormal cs
  | [], _ => trivial
  | c :: cs, h => ⟨Condition.isNormal_of_readable c h.1, Condition.allNormal_of_readable cs h.2⟩

theorem Condition.clauseNormal_of_readable :
    ∀ c : Option Condition, Condition.ClauseReadable c → Condition.ClauseNormal c
  | none, _ => trivial
  | some c, h => Condition.isNormal_of_readable c h

theorem Select.isNormal_of_readable : ∀ s : Select, s.Readable → s.IsNormal
  | ⟨_, _, condition, _, _, _⟩, h => Condition.clauseNormal_of_readable condition h.2.2.1

end

theorem Payload.Readable.isNormal {x : Payload} (h : x.Readable) : x.IsNormal := by
  cases x with
  | assignments cs =>
    intro c hc
    obtain ⟨n, v, rfl, -, hv⟩ := h.2 c hc
    exact ⟨rfl, v.isNormal_of_readable hv⟩
  | document v => exact v.isNormal_of_readable h.2

theorem Statement.Readable.isNormal {s : Statement} (h : s.Readable) : s.IsNormal := by
  cases s with
  | select s => exact s.isNormal_of_readable h
  | insert s => exact h.2.1.isNormal
  | update s => exact h.2.isNormal
  | delete s => exact Condition.clauseNormal_of_readable s.condition h.2.2
  | get keys | del keys => exact fun k hk => k.isNormal_of_readable (h.2 k hk)
  | put s => exact ⟨s.key.isNormal_of_readable h.1, s.value.isNormal_of_readable h.2.1⟩

end Texts

section Chains

def Call.operands : Call → List Operand
  | predicate p => p.operands
  | _ => []

def Filter.operands (f : Filter) : List Operand :=
  f.tests.flatMap fun t => t.2.predicate.operands

def Chain.operands (c : Chain) : List Operand :=
  c.filter.toList.flatMap Filter.operands

namespace Chain

variable {place place' : Place} {c c' : Chain} {x : Call}

theorem operands_addTest (c : Chain) (o : Connective) (t : Test) :
    (c.addTest o t).operands = c.operands ++ t.predicate.operands := by
  obtain ⟨fields, entity, filter, kind⟩ := c
  cases filter with
  | none => simp [addTest, operands, Filter.operands, Filter.tests]
  | some f => simp [addTest, operands, Filter.operands, Filter.tests]

theorem operands_step (h : Step place c x place' c') : c'.operands = c.operands ++ x.operands := by
  cases h with
  | predicate => exact operands_addTest ..
  | _ => exact (List.append_nil _).symm

theorem operands_callAll {xs : List Call} (h : callAll place c xs = some (place', c')) :
    c'.operands = c.operands ++ xs.flatMap Call.operands := by
  induction xs generalizing place c with
  | nil =>
    cases h
    exact (List.append_nil _).symm
  | cons x xs ih =>
    obtain ⟨next, d, hcall, hrest⟩ := exists_of_callAll_cons h
    rw [ih hrest, operands_step (step_of_call hcall), List.flatMap_cons, List.append_assoc]

theorem operands_ofCalls {kind : ChainKind} {fields : List String} {calls : List Call}
    (h : ofCalls (ofFields kind fields) calls = some c) :
    c.operands = calls.flatMap Call.operands := by
  obtain ⟨place, hcalls, -⟩ := exists_of_ofCalls h
  exact operands_callAll hcalls

end Chain

theorem Predicate.isNormal_condition {p : Predicate} {name : String} {c : Condition}
    (hp : ∀ v ∈ p.operands, v.IsNormal) (h : p.condition name = .ok c) : c.IsNormal := by
  cases p with
  | compare o v =>
    cases h
    exact ⟨rfl, hp v List.mem_cons_self⟩
  | between low high => exact Condition.isNormal_of_betweenOf hp h
  | withinList values =>
    exact Condition.isNormal_of_withinOf (v := .list values) (Operand.allNormal_iff.2 hp) h
  | within values => exact Condition.isNormal_of_withinOf (hp values List.mem_cons_self) h

theorem Test.isNormal_condition {t : Test} {c : Condition}
    (ht : ∀ v ∈ t.predicate.operands, v.IsNormal) (h : t.condition = .ok c) : c.IsNormal := by
  obtain ⟨_, -, h⟩ := bind_eq_ok.1 h
  obtain ⟨d, hd, h⟩ := bind_eq_ok.1 h
  have hnormal := Predicate.isNormal_condition ht hd
  split at h
  · cases h
  · cases h
    split
    · exact hnormal
    · exact hnormal

theorem Test.isNormal_conditions {ts : List (Connective × Test)}
    {cs : List (Connective × Condition)}
    (hts : ∀ t ∈ ts, ∀ v ∈ t.2.predicate.operands, v.IsNormal)
    (hcs : (ts.mapM fun (o, t) => do
      let c ← t.condition
      return (o, c)) = .ok cs) : ∀ c ∈ cs, c.2.IsNormal := by
  induction ts generalizing cs with
  | nil =>
    cases hcs
    nofun
  | cons t ts ih =>
    rw [List.forall_mem_cons] at hts
    rw [List.mapM_cons] at hcs
    obtain ⟨_, hpair, hcs⟩ := bind_eq_ok.1 hcs
    obtain ⟨others, hothers, ⟨⟩⟩ := bind_eq_ok.1 hcs
    obtain ⟨c, hc, ⟨⟩⟩ := bind_eq_ok.1 hpair
    exact List.forall_mem_cons.2 ⟨Test.isNormal_condition hts.1 hc, ih hts.2 hothers⟩

theorem Filter.clauseNormal_condition? {f : Option Filter} {c : Option Condition}
    (hf : ∀ v ∈ f.toList.flatMap Filter.operands, v.IsNormal)
    (h : Filter.condition? f = .ok c) : Condition.ClauseNormal c := by
  cases f with
  | none =>
    cases h
    trivial
  | some f =>
    have htests : ∀ t ∈ f.tests, ∀ v ∈ t.2.predicate.operands, v.IsNormal := by
      intro t ht v hv
      refine hf v ?_
      rw [Option.toList_some, List.flatMap_singleton]
      exact List.mem_flatMap_of_mem ht hv
    obtain ⟨cs, hcs, ⟨⟩⟩ := bind_eq_ok.1 h
    have hnormal := Test.isNormal_conditions htests hcs
    rw [tests, List.mapM_cons] at hcs
    obtain ⟨_, hpair, hcs⟩ := bind_eq_ok.1 hcs
    obtain ⟨others, -, ⟨⟩⟩ := bind_eq_ok.1 hcs
    obtain ⟨first, -, ⟨⟩⟩ := bind_eq_ok.1 hpair
    rw [List.forall_mem_cons] at hnormal
    rw [Condition.ofGroups_eq_join]
    exact Condition.flat_isNormal.row hnormal.1 hnormal.2

theorem Chain.isNormal_of_build {c : Chain} {s : Statement} (hc : ∀ v ∈ c.operands, v.IsNormal)
    (h : c.build = .ok s) : s.IsNormal := by
  obtain ⟨-, -, condition, hcondition, ⟨_, _, _, -, -, rfl⟩ | ⟨-, rfl⟩⟩ := build_eq_ok h
  · exact Filter.clauseNormal_condition? hc hcondition
  · exact Filter.clauseNormal_condition? hc hcondition

end Chains

section Bind

theorem Operand.isNormal_ofValue (v : Value) : (Operand.ofValue v).IsNormal :=
  Operand.forall_ofValue (fun _ => trivial) (fun _ => trivial)
    (fun _ h => Operand.allNormal_iff.2 h) v

/-- Binding keeps conditions normal, since it keeps the operators of the parts and looks at the
values of an `in` again. -/
theorem closed_isNormal (p : Parameters) (names : List String) :
    ClosedUnderBinding p names (fun v w => v.IsNormal → w.IsNormal)
      (fun c d => d.operator = c.operator ∧ (c.IsNormal → d.IsNormal))
      (fun s t => s.IsNormal → t.IsNormal) where
  literal _ := id
  document _ := id
  parameter _ _ v _ _ := Operand.isNormal_ofValue v
  list xs ys h hxs := Operand.allNormal_iff.2
    (forall_mem_of_forall₂ (fun _ _ hxy => hxy) h (Operand.allNormal_iff.1 hxs))
  nested _ _ h := h
  compare _ _ _ _ h := ⟨rfl, fun hc => ⟨rfl, h hc.2⟩⟩
  within _ _ _ h hchoices := ⟨rfl, fun hc => ⟨hchoices, h hc.2⟩⟩
  between _ _ _ _ _ h h' := ⟨rfl, fun hc => ⟨h hc.1, h' hc.2⟩⟩
  parts o cs ds h := by
    constructor
    · cases o <;> rfl
    · intro hcs
      obtain ⟨hlen, hne, hall⟩ := Condition.isNormal_ofParts.1 hcs
      apply Condition.isNormal_ofParts.2
      refine ⟨h.length_eq ▸ hlen, forall_mem_of_forall₂ ?_ h hne, ?_⟩
      · rintro c d ⟨hoperator, -⟩ hc
        rwa [hoperator]
      · exact forall_mem_of_forall₂ (fun _ _ hcd => hcd.2) h hall
  not _ _ h := ⟨rfl, h.2⟩
  select _ _ _ _ _ _ _ h := by
    cases h with
    | none => exact id
    | some h => exact h.2

theorem Statement.IsNormal.bind {s t : Statement} {p : Parameters} (hs : s.IsNormal)
    (ht : s.bind p = .ok t) : t.IsNormal := by
  have hrel := (closed_isNormal p s.mentions).rel_statement (List.Subset.refl _) ht
  have hoperands : ∀ {xs ys : List Operand},
      List.Forall₂ (fun v w => v.IsNormal → w.IsNormal) xs ys → (∀ x ∈ xs, x.IsNormal) →
        ∀ y ∈ ys, y.IsNormal :=
    fun h hxs => forall_mem_of_forall₂ (fun _ _ hxy => hxy) h hxs
  cases hrel with
  | select h => exact h hs
  | insert h | update h =>
    cases h with
    | assignments h => exact forall_mem_of_forall₂ (fun _ _ hcd => hcd.2) h hs
    | document h => exact h hs
  | delete h =>
    cases h with
    | none => trivial
    | some h => exact h.2 hs
  | get h | del h => exact hoperands h hs
  | put hk hv => exact ⟨hk hs.1, hv hs.2⟩

theorem Statement.mentions_choices {s t : Statement} {p : Parameters} (ht : s.bind p = .ok t) :
    ∀ v ∈ t.choices, v.mentions = [] := by
  intro v hv
  obtain ⟨_, -, hmentions, -⟩ :=
    exists_mem_of_forall₂ (boundChoices (closed_mentions_eq_nil p s.mentions) ht) hv
  exact hmentions

end Bind

/-- Conditions of texts and of chains are normal, and whatever is formed of normal conditions and
operands, or bound to values, is normal again. Joining does not depend on how joins are nested. -/
theorem conditions_stay_normal :
    (∀ text s, (parseStatement text).result = .ok s → s.IsNormal) ∧
      (∀ text ss, (parseScript text).result = .ok ss → ∀ s ∈ ss, s.IsNormal) ∧
      (∀ fields calls c s, Chain.select fields calls = some c ∨ Chain.delete fields calls = some c →
        (∀ v ∈ calls.flatMap Call.operands, v.IsNormal) → c.build = .ok s → s.IsNormal) ∧
      (∀ c d : Condition, c.IsNormal → d.IsNormal →
        (c.and d).IsNormal ∧ (c.or d).IsNormal ∧ (Condition.not c).IsNormal) ∧
      (∀ cs d, (∀ c ∈ cs, c.IsNormal) → Condition.allOf cs = .ok d ∨ Condition.anyOf cs = .ok d →
        d.IsNormal) ∧
      (∀ n o v c, v.IsNormal → Condition.compareBy n o v = .ok c ∨ Condition.withinOf n v = .ok c →
        c.IsNormal) ∧
      (∀ n vs c, (∀ v ∈ vs, v.IsNormal) →
        Condition.withinOf n (.list vs) = .ok c ∨ Condition.betweenOf n vs = .ok c → c.IsNormal) ∧
      (∀ (s t : Statement) p, s.IsNormal → s.bind p = .ok t →
        t.IsNormal ∧ ∀ v ∈ t.choices, v.mentions = []) ∧
      ∀ a b c : Condition,
        (a.and b).and c = a.and (b.and c) ∧ (a.or b).or c = a.or (b.or c) := by
  refine ⟨?texts, ?scripts, ?chains, ?joins, ?lists, ?values, ?bounds, ?bind, ?assoc⟩
  case texts => exact fun text s h => (readable_of_parseStatement h).isNormal
  case scripts => exact fun text ss h s hs => (readable_of_parseScript h s hs).isNormal
  case chains =>
    rintro fields calls c s hc hcalls hbuild
    refine Chain.isNormal_of_build ?_ hbuild
    rcases hc with hc | hc
    · rwa [Chain.operands_ofCalls hc]
    · rwa [Chain.operands_ofCalls hc]
  case joins =>
    intro c d hc hd
    exact ⟨Condition.flat_isNormal.join (o := .and) hc hd,
      Condition.flat_isNormal.join (o := .or) hc hd, hc⟩
  case lists =>
    rintro cs d hcs (h | h)
    · exact Condition.flat_isNormal.form (o := .and) hcs h
    · exact Condition.flat_isNormal.form (o := .or) hcs h
  case values =>
    rintro n o v c hv (h | h)
    · exact Condition.isNormal_of_compareBy hv h
    · exact Condition.isNormal_of_withinOf hv h
  case bounds =>
    rintro n vs c hvs (h | h)
    · exact Condition.isNormal_of_withinOf (v := .list vs) (Operand.allNormal_iff.2 hvs) h
    · exact Condition.isNormal_of_betweenOf hvs h
  case bind => exact fun s t p hs ht => ⟨hs.bind ht, Statement.mentions_choices ht⟩
  case assoc => exact fun a b c => ⟨a.and_assoc b c, a.or_assoc b c⟩

/-- A text, a script and a chain with a nested select, whose parameter is bound, and tests that are
joined. -/
theorem conditions_stay_normal_nested :
    let text := "select * from T where a = 1 and (b in @p or not c = 2)"
    let script := "delete from T where a = 1; get 'k'"
    let nested (v : Operand) : Operand := .nested ⟨"U", ["b"], some (.within "c" v), [], 0, 0⟩
    let calls := [Call.entity "T", .filter "a", .predicate (.within (nested (.parameter "p"))),
      .or "d", .not, .predicate (.compare .equal (.literal .null))]
    let test : Condition := .compare "d" .equal (.literal .null)
    let chosen (v : Operand) : Statement :=
      .select ⟨"T", [], some (.any [.within "a" (nested v), .not test]), [], 0, 0⟩
    let values := Operand.list [.literal (.int 1)]
    (∃ s, (parseStatement text).result = .ok s ∧ s.IsNormal) ∧
      (∃ ss, (parseScript script).result = .ok ss ∧ ∀ s ∈ ss, s.IsNormal) ∧
      (∃ c, Chain.select [] calls = some c ∧ c.build = .ok (chosen (.parameter "p"))) ∧
      (chosen (.parameter "p")).IsNormal ∧ (chosen values).IsNormal ∧
      (∀ v ∈ (chosen values).choices, v.mentions = []) ∧
      (Condition.all [test, test]).IsNormal ∧ (Condition.any [test, test, test]).IsNormal ∧
      (Condition.between "d" (.literal .null) values).IsNormal := by
  intro text script nested calls test chosen values
  obtain ⟨htexts, hscripts, hchains, hjoins, hlists, hvalues, hbounds, hbind, -⟩ :=
    conditions_stay_normal
  have htext : ∃ s, (parseStatement text).result = .ok s :=
    exists_ok_of_toOption (by decide +kernel)
  have hscript : ∃ ss, (parseScript script).result = .ok ss :=
    exists_ok_of_toOption (by decide +kernel)
  have hcalls : ∀ v ∈ [nested (.parameter "p"), .literal .null], v.IsNormal :=
    List.forall_mem_cons.2 ⟨⟨rfl, trivial⟩, List.forall_mem_singleton.2 trivial⟩
  have hchosen := hchains [] calls _ _ (.inl rfl) hcalls rfl
  have htest := hvalues "d" (.comparison .equal) (.literal .null) _ trivial (.inl rfl)
  have htests : ∀ c ∈ [test, test, test], c.IsNormal := by
    simp only [List.forall_mem_cons]
    exact ⟨htest, htest, htest, List.forall_mem_nil _⟩
  have htwo : ∀ v ∈ [.literal .null, values], v.IsNormal :=
    List.forall_mem_cons.2 ⟨trivial, List.forall_mem_singleton.2 ⟨trivial, trivial⟩⟩
  obtain ⟨s, hs⟩ := htext
  obtain ⟨ss, hss⟩ := hscript
  obtain ⟨hbound, hchoices⟩ :=
    hbind _ _ ((Parameters.ofNames ["p"]).fill "p" (.array [.int 1])) hchosen rfl
  exact ⟨⟨s, hs, htexts text s hs⟩, ⟨ss, hss, hscripts script ss hss⟩, ⟨_, rfl, rfl⟩, hchosen,
    hbound, hchoices, (hjoins _ _ htest htest).1, hlists _ _ htests (.inr rfl),
    hbounds "d" _ _ htwo (.inr rfl)⟩

end StoreQuery

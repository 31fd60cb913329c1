import StoreQuery.Proofs.Sequence
import StoreQuery.Query.Chain

/-! # Conditions built anew

A condition put together directly may have conjunctions in conjunctions, or parts of a single
condition. Building it anew from its leaves up, by `allOf`, `anyOf` and `not`, removes these, and
the truth of the condition stays what it was. Only empty lists of parts cannot be built anew.
-/

namespace StoreQuery

namespace Connective

def ofParts : Connective → List Condition → Condition
  | and => .all
  | or => .any

def join : Connective → Condition → Condition → Condition
  | and => .and
  | or => .or

def form : Connective → List Condition → Except QueryError Condition
  | and => Condition.allOf
  | or => Condition.anyOf

def truth : Connective → List Bool → Bool
  | and, bs => bs.all id
  | or, bs => bs.any id

theorem form_eq_ok {o : Connective} {cs : List Condition} {d : Condition} :
    o.form cs = .ok d ↔ ∃ e es, cs = e :: es ∧ d = es.foldl o.join e := by
  cases cs with
  | nil => cases o <;> exact ⟨nofun, nofun⟩
  | cons e es =>
    have hform : o.form (e :: es) = .ok (es.foldl o.join e) := by cases o <;> rfl
    rw [hform]
    refine ⟨fun h => ⟨e, es, rfl, (Except.ok.inj h).symm⟩, ?_⟩
    rintro ⟨_, _, ⟨⟩, rfl⟩
    rfl

end Connective

namespace Condition

mutual

@[elab_as_elim]
theorem induction_on_parts {P : Condition → Prop} (leaf : ∀ c, c.isLogical = false → P c)
    (parts : ∀ (o : Connective) cs, (∀ c ∈ cs, P c) → P (o.ofParts cs))
    (not : ∀ c, P c → P (.not c)) : ∀ c, P c
  | .compare .. | .within .. | .between .. => leaf _ rfl
  | .all cs => parts .and cs (forall_mem_of_parts leaf parts not cs)
  | .any cs => parts .or cs (forall_mem_of_parts leaf parts not cs)
  | .not c => not c (induction_on_parts leaf parts not c)

theorem forall_mem_of_parts {P : Condition → Prop} (leaf : ∀ c, c.isLogical = false → P c)
    (parts : ∀ (o : Connective) cs, (∀ c ∈ cs, P c) → P (o.ofParts cs))
    (not : ∀ c, P c → P (.not c)) : ∀ cs : List Condition, ∀ c ∈ cs, P c
  | [] => nofun
  | c :: cs => List.forall_mem_cons.2
      ⟨induction_on_parts leaf parts not c, forall_mem_of_parts leaf parts not cs⟩

end

/-- The tests of a condition, from left to right. -/
def leaves : Condition → List Condition :=
  fold (fun n c v => [.compare n c v]) (fun n v => [.within n v])
    (fun n low high => [.between n low high]) List.flatten List.flatten id

/-- Whether no list of parts is empty. -/
def hasParts : Condition → Bool :=
  fold (fun _ _ _ => true) (fun _ _ => true) (fun _ _ _ => true)
    (fun bs => !bs.isEmpty && bs.all id) (fun bs => !bs.isEmpty && bs.all id) id

/-- The truth of a condition, each leaf having a value. -/
def holds (value : Condition → Bool) : Condition → Bool :=
  fold (fun n c v => value (.compare n c v)) (fun n v => value (.within n v))
    (fun n low high => value (.between n low high)) (·.all id) (·.any id) (!·)

def rebuild : Condition → Except QueryError Condition :=
  fold (fun n c v => .ok (.compare n c v)) (fun n v => .ok (.within n v))
    (fun n low high => .ok (.between n low high))
    (fun cs => do allOf (← cs.mapM id)) (fun cs => do anyOf (← cs.mapM id)) (·.map .not)

variable {value : Condition → Bool} {o : Connective} {c d : Condition} {cs ds : List Condition}

theorem leaves_leaf (h : c.isLogical = false) : c.leaves = [c] := by
  cases c <;> first | rfl | cases h

theorem leaves_ofParts : (o.ofParts cs).leaves = cs.flatMap leaves := by
  cases o <;> rw [Connective.ofParts, leaves, fold, foldAll_eq_map] <;> rfl

theorem hasParts_leaf (h : c.isLogical = false) : c.hasParts = true := by
  cases c <;> first | rfl | cases h

theorem hasParts_ofParts : (o.ofParts cs).hasParts = (!cs.isEmpty && cs.all hasParts) := by
  cases o <;>
    rw [Connective.ofParts, hasParts, fold, foldAll_eq_map, List.isEmpty_map, List.all_map] <;> rfl

theorem holds_ofParts : (o.ofParts cs).holds value = o.truth (cs.map (holds value)) := by
  cases o <;> rw [Connective.ofParts, holds, fold, foldAll_eq_map] <;> rfl

theorem holds_not : (not c).holds value = !c.holds value := rfl

theorem holds_join : (o.join c d).holds value = o.truth [c.holds value, d.holds value] := by
  cases o with
  | and =>
    have hconjuncts : ∀ c : Condition, c.conjuncts.all (holds value) = c.holds value := by
      intro c
      cases c with
      | all cs => exact (holds_ofParts (o := .and).trans List.all_map).symm
      | _ => exact Bool.and_true _
    have h : (c.and d).holds value = ((c.conjuncts ++ d.conjuncts).map (holds value)).all id :=
      holds_ofParts (o := .and)
    exact h.trans (by simp [Connective.truth, hconjuncts])
  | or =>
    have hdisjuncts : ∀ c : Condition, c.disjuncts.any (holds value) = c.holds value := by
      intro c
      cases c with
      | any cs => exact (holds_ofParts (o := .or).trans List.any_map).symm
      | _ => exact Bool.or_false _
    have h : (c.or d).holds value = ((c.disjuncts ++ d.disjuncts).map (holds value)).any id :=
      holds_ofParts (o := .or)
    exact h.trans (by simp [Connective.truth, hdisjuncts])

theorem rebuild_leaf (h : c.isLogical = false) : c.rebuild = .ok c := by
  cases c <;> first | rfl | cases h

theorem rebuild_not : (not c).rebuild = .ok d ↔ ∃ e, c.rebuild = .ok e ∧ d = .not e := by
  rw [show (not c).rebuild = c.rebuild.map .not from rfl]
  cases c.rebuild with
  | error => exact ⟨nofun, nofun⟩
  | ok e =>
    refine ⟨fun h => ⟨e, rfl, (Except.ok.inj h).symm⟩, ?_⟩
    rintro ⟨_, ⟨⟩, rfl⟩
    rfl

theorem mapM_rebuild_cons :
    (c :: cs).mapM rebuild = .ok ds ↔
      ∃ d es, c.rebuild = .ok d ∧ cs.mapM rebuild = .ok es ∧ ds = d :: es := by
  rw [List.mapM_cons, bind_eq_ok]
  constructor
  · rintro ⟨d, hd, h⟩
    obtain ⟨es, hes, ⟨⟩⟩ := bind_eq_ok.1 h
    exact ⟨d, es, hd, hes, rfl⟩
  · rintro ⟨d, es, hd, hes, rfl⟩
    exact ⟨d, hd, bind_eq_ok.2 ⟨es, hes, rfl⟩⟩

theorem rebuild_ofParts :
    (o.ofParts cs).rebuild = .ok d ↔
      ∃ e es, cs.mapM rebuild = .ok (e :: es) ∧ d = es.foldl o.join e := by
  have hform : (o.ofParts cs).rebuild = cs.mapM rebuild >>= o.form := by
    cases o <;> rw [Connective.ofParts, rebuild, fold, foldAll_eq_map, List.mapM_map] <;> rfl
  rw [hform, bind_eq_ok]
  constructor
  · rintro ⟨ds, hds, hd⟩
    obtain ⟨e, es, rfl, rfl⟩ := Connective.form_eq_ok.1 hd
    exact ⟨e, es, hds, rfl⟩
  · rintro ⟨e, es, hds, rfl⟩
    exact ⟨e :: es, hds, Connective.form_eq_ok.2 ⟨e, es, rfl, rfl⟩⟩

theorem exists_rebuild (h : c.hasParts = true) : ∃ d, c.rebuild = .ok d := by
  induction c using induction_on_parts with
  | leaf c hc => exact ⟨c, rebuild_leaf hc⟩
  | parts o cs ih =>
    have hcs : ∃ ds, cs.mapM rebuild = .ok ds ∧ ds.length = cs.length := by
      rw [hasParts_ofParts, Bool.and_eq_true] at h
      replace h := h.2
      induction cs with
      | nil => exact ⟨[], rfl, rfl⟩
      | cons c cs ihcs =>
        rw [List.forall_mem_cons] at ih
        rw [List.all_cons, Bool.and_eq_true] at h
        obtain ⟨d, hd⟩ := ih.1 h.1
        obtain ⟨ds, hds, hlen⟩ := ihcs ih.2 h.2
        refine ⟨d :: ds, mapM_rebuild_cons.2 ⟨d, ds, hd, hds, rfl⟩, ?_⟩
        rw [List.length_cons, hlen, List.length_cons]
    obtain ⟨ds, hds, hlen⟩ := hcs
    cases ds with
    | nil =>
      rw [List.eq_nil_of_length_eq_zero hlen.symm, hasParts_ofParts] at h
      cases h
    | cons d ds => exact ⟨_, rebuild_ofParts.2 ⟨d, ds, hds, rfl⟩⟩
  | not c ih =>
    obtain ⟨d, hd⟩ := ih h
    exact ⟨.not d, rebuild_not.2 ⟨d, hd, rfl⟩⟩

theorem holds_foldl_join :
    (ds.foldl o.join d).holds value = o.truth (d.holds value :: ds.map (holds value)) := by
  induction ds generalizing d with
  | nil => cases o <;> simp [Connective.truth]
  | cons e ds ih =>
    rw [List.foldl_cons, ih, holds_join]
    cases o <;> simp [Connective.truth, Bool.and_assoc, Bool.or_assoc]

/-- A condition built anew has the truth that it had. -/
theorem holds_rebuild (h : c.rebuild = .ok d) : d.holds value = c.holds value := by
  induction c using induction_on_parts generalizing d with
  | leaf c hc =>
    rw [rebuild_leaf hc] at h
    cases h
    rfl
  | parts o cs ih =>
    obtain ⟨e, es, hes, rfl⟩ := rebuild_ofParts.1 h
    have hmap : (e :: es).map (holds value) = cs.map (holds value) := by
      clear h
      generalize e :: es = ds at hes
      induction cs generalizing ds with
      | nil =>
        cases hes
        rfl
      | cons c cs ihcs =>
        rw [List.forall_mem_cons] at ih
        obtain ⟨d, ds, hd, hds, rfl⟩ := mapM_rebuild_cons.1 hes
        rw [List.map_cons, List.map_cons, ih.1 hd, ihcs ih.2 ds hds]
    rw [holds_foldl_join, holds_ofParts, ← hmap, List.map_cons]
  | not c ih =>
    obtain ⟨e, he, rfl⟩ := rebuild_not.1 h
    rw [holds_not, holds_not, ih he]

end Condition

end StoreQuery

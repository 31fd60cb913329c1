import StoreQuery.Proofs.Grammar.Row
import StoreQuery.Proofs.Query.Rebuild

/-! # Flat conditions

Conjunctions and disjunctions have at least two parts and none of their own kind. Joining conditions
keeps this, for the parts of what is joined are taken apart first; so a property that is the one of
all parts of a flat condition passes to whatever is joined, by two, in a list or in a row.
-/

namespace StoreQuery

def Connective.operator : Connective → Operator
  | and => .and
  | or => .or

namespace Condition

/-- Whether a property is the one of all parts, the conditions that have it being flat. -/
def Flat (P : Condition → Prop) : Prop :=
  ∀ (o : Connective) cs,
    P (o.ofParts cs) ↔ 2 ≤ cs.length ∧ (∀ c ∈ cs, c.operator ≠ o.operator) ∧ ∀ c ∈ cs, P c

def partsOf : Connective → Condition → List Condition
  | .and => conjuncts
  | .or => disjuncts

theorem join_eq_ofParts (o : Connective) (c d : Condition) :
    o.join c d = o.ofParts (partsOf o c ++ partsOf o d) := by
  cases o <;> rfl

theorem partsOf_eq (o : Connective) (c : Condition) :
    c = o.ofParts (partsOf o c) ∨ partsOf o c = [c] ∧ c.operator ≠ o.operator := by
  cases o <;> cases c <;> first | exact .inl rfl | exact .inr ⟨rfl, nofun⟩

namespace Flat

variable {P : Condition → Prop} {o : Connective} {b c d : Condition} {cs : List Condition}

theorem parts (hP : Flat P) (hc : P c) :
    0 < (partsOf o c).length ∧ ∀ d ∈ partsOf o c, d.operator ≠ o.operator ∧ P d := by
  rcases partsOf_eq o c with h | ⟨h, hne⟩
  · rw [h] at hc
    obtain ⟨hlen, hne, hall⟩ := (hP o _).1 hc
    exact ⟨Nat.lt_of_lt_of_le Nat.two_pos hlen, fun d hd => ⟨hne d hd, hall d hd⟩⟩
  · rw [h]
    exact ⟨Nat.one_pos, List.forall_mem_singleton.2 ⟨hne, hc⟩⟩

theorem join (hP : Flat P) (hc : P c) (hd : P d) : P (o.join c d) := by
  obtain ⟨hclen, hc⟩ := hP.parts (o := o) hc
  obtain ⟨hdlen, hd⟩ := hP.parts (o := o) hd
  have hall := List.forall_mem_append.2 ⟨hc, hd⟩
  rw [join_eq_ofParts, hP]
  refine ⟨?_, fun e he => (hall e he).1, fun e he => (hall e he).2⟩
  rw [List.length_append]
  omega

theorem foldl (hP : Flat P) (hc : P c) (hcs : ∀ d ∈ cs, P d) : P (cs.foldl o.join c) := by
  induction cs generalizing c with
  | nil => exact hc
  | cons d cs ih =>
    rw [List.forall_mem_cons] at hcs
    exact ih (hP.join hc hcs.1) hcs.2

theorem form (hP : Flat P) (hcs : ∀ c ∈ cs, P c) (h : o.form cs = .ok d) : P d := by
  obtain ⟨c, cs, rfl, rfl⟩ := Connective.form_eq_ok.1 h
  rw [List.forall_mem_cons] at hcs
  exact hP.foldl hcs.1 hcs.2

theorem joinAfter (hP : Flat P) {before : Option Condition} {row : List (Connective × Condition)}
    (hbefore : ∀ b ∈ before, P b) (hc : P c) (hrow : ∀ p ∈ row, P p.2) :
    P (joinAfter before c row) := by
  have hclose : ∀ {before : Option Condition} {c : Condition}, (∀ b ∈ before, P b) → P c →
      P ((before.map (·.or c)).getD c) := by
    intro before c hbefore hc
    cases before with
    | none => exact hc
    | some b => exact hP.join (o := .or) (hbefore b rfl) hc
  induction row generalizing before c with
  | nil => exact hclose hbefore hc
  | cons p row ih =>
    obtain ⟨o, d⟩ := p
    rw [List.forall_mem_cons] at hrow
    cases o with
    | and => exact ih hbefore (hP.join (o := .and) hc hrow.1) hrow.2
    | or =>
      refine ih ?_ hrow.1 hrow.2
      rintro _ ⟨⟩
      exact hclose hbefore hc

theorem row (hP : Flat P) {row : List (Connective × Condition)} (hc : P c)
    (hrow : ∀ p ∈ row, P p.2) : P (Condition.join c row) :=
  hP.joinAfter nofun hc hrow

end Flat

end Condition

end StoreQuery

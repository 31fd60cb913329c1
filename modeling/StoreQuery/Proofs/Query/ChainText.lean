import StoreQuery.Proofs.Query.Canonical
import StoreQuery.Query.Call

/-! # Chains as text

A chain given call by call can be written call by call: every call adds its clause to the text. The
text is read as the statement that the chain builds.
-/

namespace StoreQuery

open Grammar

def Connective.keyword : Connective → Keyword
  | and => .and
  | or => .or

def Predicate.render (name : String) : Predicate → String
  | compare c v => Name.render name ++ " " ++ c.render ++ " " ++ v.render
  | between low high => Name.render name ++ " between " ++ low.render ++ " and " ++ high.render
  | withinList values => Name.render name ++ " in " ++ (Operand.list values).renderChoices
  | within values => Name.render name ++ " in " ++ values.renderChoices

def Predicate.operands : Predicate → List Operand
  | compare _ v | within v => [v]
  | between low high => [low, high]
  | withinList values => values

namespace Call

def render (place : Place) : Call → String
  | entity name => "from " ++ Name.render name
  | filter _ => " where "
  | and _ => " and "
  | or _ => " or "
  | not => "not "
  | predicate p =>
    match place with
    | .testing _ name _ => p.render name
    | _ => ""
  | orderBy name => (match place with | .sorted => ", " | _ => " order by ") ++ Name.render name
  | direction d => " " ++ d.word
  | skip n => " skip " ++ toString n.toNat
  | limit n => " limit " ++ toString n.toNat

end Call

namespace Chain

def renderCalls (place : Place) (c : Chain) : List Call → String
  | [] => ""
  | x :: xs =>
    x.render place ++
      match c.call place x with
      | some (place, c) => renderCalls place c xs
      | none => ""

/-- The text of a chain before its entity. A delete of whole records may do without the star. -/
def heading (star : Bool) (c : Chain) : String :=
  match c.kind with
  | .select .. => "select " ++ (if c.fields.isEmpty then "*" else Name.renderList c.fields) ++ " "
  | .delete =>
    "delete " ++ (if c.fields.isEmpty then (if star then "* " else "")
      else Name.renderList c.fields ++ " ")

/-- The text of a chain that is given by calls. -/
def text (star : Bool) (c : Chain) (calls : List Call) : String :=
  c.heading star ++ c.renderCalls .start calls

end Chain

def Test.render (t : Test) : String :=
  (if t.negated then "not " else "") ++ t.predicate.render t.name

namespace Filter

def renderOthers : List (Connective × Test) → String
  | [] => ""
  | (o, t) :: ts => " " ++ o.keyword.word ++ " " ++ t.render ++ renderOthers ts

def renderClause : Option Filter → String
  | none => ""
  | some f => " where " ++ f.first.render ++ renderOthers f.others

theorem renderOthers_append (ts us : List (Connective × Test)) :
    renderOthers (ts ++ us) = renderOthers ts ++ renderOthers us := by
  induction ts with
  | nil => exact (String.empty_append ..).symm
  | cons t ts ih =>
    obtain ⟨o, t⟩ := t
    simp only [List.cons_append, renderOthers, ih, String.append_assoc]

end Filter

theorem SortKey.renderClause_append {sorts : List SortKey} (h : sorts ≠ []) (s : SortKey) :
    renderClause (sorts ++ [s]) = renderClause sorts ++ ", " ++ s.render := by
  obtain ⟨r, sorts, rfl⟩ := List.exists_cons_of_ne_nil h
  rw [List.cons_append, renderClause, renderClause, ← List.cons_append, List.map_append,
    List.map_singleton, String.intercalate_append_of_ne_nil (by simp) (by simp),
    String.intercalate_singleton]
  · simp only [String.append_assoc]
  · simp
  · simp

namespace Chain

def base (star : Bool) (c : Chain) : String :=
  c.heading star ++ "from " ++ Name.render c.entity ++ Filter.renderClause c.filter

def joint (c : Chain) (o : Connective) : String :=
  match c.filter with
  | none => " where "
  | some _ => " " ++ o.keyword.word ++ " "

def IsBare (c : Chain) : Prop :=
  c.kind = .select [] 0 0 ∨ c.kind = .delete

/-- Some text is the one of a chain whose calls have come to a place. -/
def IsText (star : Bool) (c : Chain) (s : String) : Place → Prop
  | .start => c.filter = none ∧ c.IsBare ∧ s = c.heading star
  | .named => c.filter = none ∧ c.IsBare ∧ s = c.base star
  | .testing o _ negated =>
    c.IsBare ∧ s = c.base star ++ c.joint o ++ (if negated then "not " else "")
  | .tested => c.filter.isSome = true ∧ c.IsBare ∧ s = c.base star
  | .sorting name => ∃ sorts, c.kind = .select sorts 0 0 ∧
    s = c.base star ++
      (if sorts.isEmpty then " order by " else SortKey.renderClause sorts ++ ", ") ++
      Name.render name
  | .sorted => ∃ sorts, sorts ≠ [] ∧ c.kind = .select sorts 0 0 ∧
    s = c.base star ++ SortKey.renderClause sorts
  | .skipped => ∃ sorts skip, c.kind = .select sorts skip 0 ∧
    s = c.base star ++ SortKey.renderClause sorts ++ " skip " ++ toString skip.toNat
  | .limited => ∃ sorts limit, c.kind = .select sorts 0 limit ∧
    s = c.base star ++ SortKey.renderClause sorts ++ " limit " ++ toString limit.toNat
  | .paged => ∃ sorts skip limit, c.kind = .select sorts skip limit ∧
    (s = c.base star ++ SortKey.renderClause sorts ++ " skip " ++ toString skip.toNat ++
        " limit " ++ toString limit.toNat ∨
      s = c.base star ++ SortKey.renderClause sorts ++ " limit " ++ toString limit.toNat ++
        " skip " ++ toString skip.toNat)

inductive Step : Place → Chain → Call → Place → Chain → Prop where
  | entity {fields : List String} {entity name : String} {filter : Option Filter}
      {kind : ChainKind} :
      Step .start ⟨fields, entity, filter, kind⟩ (.entity name) .named ⟨fields, name, filter, kind⟩
  | filter {c : Chain} {name : String} :
      Step .named c (.filter name) (.testing .and name false) c
  | and {c : Chain} {name : String} : Step .tested c (.and name) (.testing .and name false) c
  | or {c : Chain} {name : String} : Step .tested c (.or name) (.testing .or name false) c
  | not {c : Chain} {o : Connective} {name : String} :
      Step (.testing o name false) c .not (.testing o name true) c
  | predicate {c : Chain} {o : Connective} {name : String} {negated : Bool} {p : Predicate} :
      Step (.testing o name negated) c (.predicate p) .tested (c.addTest o ⟨name, negated, p⟩)
  | orderBy {fields : List String} {entity name : String} {filter : Option Filter}
      {sorts : List SortKey} {skip limit : UInt64} {place : Place}
      (h : place.isOrderable = true) :
      Step place ⟨fields, entity, filter, .select sorts skip limit⟩ (.orderBy name)
        (.sorting name) ⟨fields, entity, filter, .select sorts skip limit⟩
  | direction {fields : List String} {entity name : String} {filter : Option Filter}
      {sorts : List SortKey} {skip limit : UInt64} {d : Direction} :
      Step (.sorting name) ⟨fields, entity, filter, .select sorts skip limit⟩ (.direction d)
        .sorted ⟨fields, entity, filter, .select (sorts ++ [⟨name, d⟩]) skip limit⟩
  | skip {fields : List String} {entity : String} {filter : Option Filter}
      {sorts : List SortKey} {skip limit n : UInt64} {place : Place}
      (h : place.isOrderable = true) :
      Step place ⟨fields, entity, filter, .select sorts skip limit⟩ (.skip n) .skipped
        ⟨fields, entity, filter, .select sorts n limit⟩
  | limit {fields : List String} {entity : String} {filter : Option Filter}
      {sorts : List SortKey} {skip limit n : UInt64} {place : Place}
      (h : place.isOrderable = true) :
      Step place ⟨fields, entity, filter, .select sorts skip limit⟩ (.limit n) .limited
        ⟨fields, entity, filter, .select sorts skip n⟩
  | limitSkip {fields : List String} {entity : String} {filter : Option Filter}
      {sorts : List SortKey} {skip limit n : UInt64} :
      Step .limited ⟨fields, entity, filter, .select sorts skip limit⟩ (.skip n) .paged
        ⟨fields, entity, filter, .select sorts n limit⟩
  | skipLimit {fields : List String} {entity : String} {filter : Option Filter}
      {sorts : List SortKey} {skip limit n : UInt64} :
      Step .skipped ⟨fields, entity, filter, .select sorts skip limit⟩ (.limit n) .paged
        ⟨fields, entity, filter, .select sorts skip n⟩

variable {star : Bool} {place place' : Place} {c c' : Chain} {s : String} {x : Call}

theorem step_of_call (h : c.call place x = some (place', c')) : Step place c x place' c' := by
  obtain ⟨fields, entity, filter, kind⟩ := c
  unfold Chain.call at h
  split at h
  case h_7 hkind | h_8 hkind | h_9 hkind =>
    obtain rfl : kind = _ := hkind
    cases h
    constructor
  case h_10 hkind | h_11 hkind | h_12 hkind =>
    obtain rfl : kind = _ := hkind
    split at h
    · next hplace =>
      cases h
      constructor
      exact hplace
    · cases h
  case h_13 => cases h
  all_goals
    cases h
    constructor

theorem exists_of_callAll_cons {xs : List Call}
    (h : callAll place c (x :: xs) = some (place', c')) :
    ∃ next d, c.call place x = some (next, d) ∧ callAll next d xs = some (place', c') := by
  rw [callAll] at h
  cases hcall : c.call place x with
  | none =>
    rw [hcall] at h
    cases h
  | some p =>
    rw [hcall] at h
    exact ⟨p.1, p.2, rfl, h⟩

theorem exists_of_ofCalls {xs : List Call} (h : ofCalls c xs = some c') :
    ∃ place, callAll .start c xs = some (place, c') ∧ place.isFinal = true := by
  rw [ofCalls] at h
  split at h
  · next place d hcalls =>
    split at h
    · next hplace =>
      cases h
      exact ⟨place, hcalls, hplace⟩
    · cases h
  · cases h

theorem IsBare.eq_of_select {sorts : List SortKey} {skip limit : UInt64} (h : c.IsBare)
    (hkind : c.kind = .select sorts skip limit) : sorts = [] ∧ skip = 0 ∧ limit = 0 := by
  rcases h with h | h <;> rw [hkind] at h <;> cases h
  exact ⟨rfl, rfl, rfl⟩

/-- Where order, skip and limit may begin, none of the last two has been given. -/
theorem IsText.of_isOrderable (h : c.IsText star s place) (hplace : place.isOrderable = true)
    {sorts : List SortKey} {skip limit : UInt64} (hkind : c.kind = .select sorts skip limit) :
    skip = 0 ∧ limit = 0 ∧ s = c.base star ++ SortKey.renderClause sorts ∧
      ∀ name, (Call.orderBy name).render place =
        (if sorts.isEmpty then " order by " else ", ") ++ Name.render name := by
  cases place with
  | named | tested =>
    obtain ⟨-, hbare, rfl⟩ := h
    obtain ⟨rfl, rfl, rfl⟩ := hbare.eq_of_select hkind
    exact ⟨rfl, rfl, (String.append_empty ..).symm, fun _ => rfl⟩
  | sorted =>
    obtain ⟨sorts', hne, hsorts, rfl⟩ := h
    rw [hsorts] at hkind
    cases hkind
    obtain ⟨r, sorts, rfl⟩ := List.exists_cons_of_ne_nil hne
    exact ⟨rfl, rfl, rfl, fun _ => rfl⟩
  | _ => cases hplace

/-- A call adds its clause to the text. -/
theorem IsText.step (h : c.IsText star s place) (hstep : Step place c x place' c') :
    c'.IsText star (s ++ x.render place) place' := by
  cases hstep with
  | entity =>
    obtain ⟨hfilter, hbare, rfl⟩ := h
    refine ⟨hfilter, hbare, ?_⟩
    obtain rfl : _ = none := hfilter
    simp only [base, Filter.renderClause, Call.render, String.append_assoc, String.append_empty]
    rfl
  | filter =>
    obtain ⟨hfilter, hbare, rfl⟩ := h
    refine ⟨hbare, ?_⟩
    simp [joint, hfilter, Call.render]
  | and | or =>
    obtain ⟨hfilter, hbare, rfl⟩ := h
    refine ⟨hbare, ?_⟩
    obtain ⟨f, hf⟩ := Option.isSome_iff_exists.1 hfilter
    simp [joint, hf, Call.render]
    rfl
  | not =>
    obtain ⟨hbare, rfl⟩ := h
    exact ⟨hbare, by simp [Call.render]⟩
  | @predicate c o name negated p =>
    obtain ⟨fields, entity, filter, kind⟩ := c
    obtain ⟨hbare, rfl⟩ := h
    cases filter with
    | none =>
      refine ⟨rfl, hbare, ?_⟩
      simp only [addTest, base, joint, Filter.renderClause, Filter.renderOthers, Test.render,
        Call.render, String.append_assoc, String.append_empty]
      rfl
    | some f =>
      refine ⟨rfl, hbare, ?_⟩
      simp only [addTest, base, joint, Filter.renderClause, Filter.renderOthers_append,
        Filter.renderOthers, Test.render, Call.render, String.append_assoc, String.append_empty]
      rfl
  | @orderBy fields entity name filter sorts skip limit place hplace =>
    obtain ⟨rfl, rfl, rfl, hrender⟩ := h.of_isOrderable hplace rfl
    refine ⟨sorts, rfl, ?_⟩
    rw [hrender]
    cases sorts <;> simp [SortKey.renderClause, String.append_assoc]
  | @direction fields entity name filter sorts skip limit d =>
    obtain ⟨sorts', hkind, rfl⟩ := h
    cases hkind
    refine ⟨sorts ++ [⟨name, d⟩], by simp, rfl, ?_⟩
    cases sorts with
    | nil =>
      simp [SortKey.renderClause, SortKey.render, Call.render, String.append_assoc]
      rfl
    | cons r sorts =>
      rw [SortKey.renderClause_append (List.cons_ne_nil r sorts)]
      simp only [List.isEmpty_cons, Bool.false_eq_true, if_false, SortKey.render, Call.render,
        String.append_assoc]
      rfl
  | skip hplace =>
    obtain ⟨rfl, rfl, rfl, -⟩ := h.of_isOrderable hplace rfl
    exact ⟨_, _, rfl, by simp only [Call.render, String.append_assoc]; rfl⟩
  | limit hplace =>
    obtain ⟨rfl, rfl, rfl, -⟩ := h.of_isOrderable hplace rfl
    exact ⟨_, _, rfl, by simp only [Call.render, String.append_assoc]; rfl⟩
  | limitSkip =>
    obtain ⟨sorts, limit, hkind, rfl⟩ := h
    cases hkind
    exact ⟨_, _, _, rfl, .inr (by simp only [Call.render, String.append_assoc]; rfl)⟩
  | skipLimit =>
    obtain ⟨sorts, skip, hkind, rfl⟩ := h
    cases hkind
    exact ⟨_, _, _, rfl, .inl (by simp only [Call.render, String.append_assoc]; rfl)⟩

theorem IsText.calls {xs : List Call} (h : c.IsText star s place)
    (hcalls : callAll place c xs = some (place', c')) :
    c'.IsText star (s ++ c.renderCalls place xs) place' := by
  induction xs generalizing place c s with
  | nil =>
    cases hcalls
    rwa [renderCalls, String.append_empty]
  | cons x xs ih =>
    obtain ⟨next, d, hcall, hrest⟩ := exists_of_callAll_cons hcalls
    rw [renderCalls, hcall, ← String.append_assoc]
    exact ih (h.step (step_of_call hcall)) hrest

end Chain

end StoreQuery

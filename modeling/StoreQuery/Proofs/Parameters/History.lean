import Mathlib.Data.List.Induction
import Mathlib.Data.List.Nodup
import StoreQuery.Proofs.Parameters

/-! # The history of parameters

A set of parameters is what operations have made of the empty set. From outside it is an ordered
map: its names stand in the order in which they were first registered, and the value of a name is
the one that the last successful operation gave it, those before a reset being forgotten. Row and
index are two views of the same names, and no history makes them disagree.
-/

namespace StoreQuery

namespace Parameters

inductive Operation where
  | add (name : String)
  | bind (name : String) (value : Value)
  | rebind (name : String) (value : Value)
  | reset

namespace Operation

def added? : Operation → Option String
  | add name => some name
  | _ => none

def assigned? : Operation → Option (String × Value)
  | bind name value | rebind name value => some (name, value)
  | _ => none

def valueFor? (o : Operation) (n : String) : Option Value :=
  o.assigned?.bind fun (m, v) => if m = n then some v else none

def isReset : Operation → Bool
  | reset => true
  | _ => false

end Operation

/-- What an operation makes of a set. -/
def apply (p : Parameters) : Operation → Change Parameters
  | .add name => (.ok (), p.add name)
  | .bind name value => p.supply name value
  | .rebind name value => p.replace name value
  | .reset => (.ok (), p.reset)

def refusal? (p : Parameters) (o : Operation) : Option QueryError :=
  match (p.apply o).1 with
  | .ok () => none
  | .error e => some e

def step (p : Parameters) (o : Operation) : Parameters :=
  (p.apply o).2

def run (os : List Operation) : Parameters :=
  os.foldl step empty

/-- The operations of a history that succeed. -/
def successes (p : Parameters) : List Operation → List Operation
  | [] => []
  | o :: os =>
    if p.refusal? o = none then o :: successes (p.step o) os else successes (p.step o) os

/-- The last value that some operations give to a name, those before a reset not being counted. -/
def lastValue? (n : String) (os : List Operation) : Option Value :=
  (os.reverse.takeWhile fun o => !o.isReset).findSome? (·.valueFor? n)

variable {p q : Parameters} {m n : String} {v w : Value} {o a b : Operation} {os : List Operation}

section Step

theorem refusal?_eq_none : p.refusal? o = none ↔ (p.apply o).1 = .ok () := by
  rw [refusal?]
  cases (p.apply o).1 <;> simp

theorem refusal?_eq_some {e : QueryError} : p.refusal? o = some e ↔ (p.apply o).1 = .error e := by
  rw [refusal?]
  cases (p.apply o).1 <;> simp

theorem step_of_refusal? {e : QueryError} (h : p.refusal? o = some e) : p.step o = p := by
  have herror := refusal?_eq_some.1 h
  cases o with
  | add | reset => cases herror
  | bind => exact eq_of_supply_error herror
  | rebind => exact eq_of_replace_error herror

theorem step_of_assigned_ok (ho : o.assigned? = some (n, v)) (h : (p.apply o).1 = .ok ()) :
    n ∈ p.names ∧ p.step o = p.fill n v := by
  cases o with
  | add | reset => cases ho
  | bind =>
    cases ho
    obtain ⟨hn, -, hq⟩ := bind_eq_ok.1 (Change.settled_eq_ok.2 (Prod.ext h rfl))
    exact ⟨hn, hq⟩
  | rebind =>
    cases ho
    exact rebind_eq_ok.1 (Change.settled_eq_ok.2 (Prod.ext h rfl))

/-- Whether a value is taken depends on the slot of its name alone. -/
theorem refusal?_congr (ho : o.assigned? = some (n, v)) (h : p.slot? n = q.slot? n) :
    p.refusal? o = q.refusal? o := by
  cases o with
  | add | reset => cases ho
  | bind | rebind =>
    cases ho
    simp only [refusal?, apply, supply, replace, h]
    rcases q.slot? n with _ | ⟨_, _ | _⟩ <;> rfl

theorem step_of_assigned (ho : o.assigned? = some (n, v)) :
    p.step o = if p.refusal? o = none then p.fill n v else p := by
  split
  · next h => exact (step_of_assigned_ok ho (refusal?_eq_none.1 h)).2
  · next h =>
    obtain ⟨e, he⟩ := Option.ne_none_iff_exists'.1 h
    exact step_of_refusal? he

/-- Only what is registered makes a name, and it comes behind the others. -/
theorem names_step : (p.step o).names = match o.added? with
    | some n => (p.add n).names
    | none => p.names := by
  cases o with
  | add => rfl
  | reset => exact Slot.map_name_map_clear p.slots
  | bind name value | rebind name value =>
    rw [step_of_assigned rfl]
    split
    · exact names_fill
    · rfl

theorem names_prefix_step (p : Parameters) (o : Operation) : p.names <+: (p.step o).names := by
  rw [names_step]
  split
  · rw [names_add]
    split
    · exact List.prefix_rfl
    · exact List.prefix_append ..
  · exact List.prefix_rfl

/-- A successful operation gives its value, forgets all values or leaves them alone. -/
theorem value?_step : (p.step o).value? n =
    if p.refusal? o = none then
      if o.isReset then none else (o.valueFor? n).or (p.value? n)
    else p.value? n := by
  cases o with
  | add => exact value?_add
  | reset => exact value?_reset
  | bind m v | rebind m v =>
    rw [step_of_assigned rfl]
    split
    · next h =>
      obtain ⟨hm, -⟩ := step_of_assigned_ok rfl (refusal?_eq_none.1 h)
      by_cases hmn : m = n
      · subst hmn
        simp [Operation.valueFor?, Operation.assigned?, Operation.isReset, value?_fill_self hm]
      · simp [Operation.valueFor?, Operation.assigned?, Operation.isReset, hmn,
          value?_fill_of_ne (Ne.symm hmn)]
    · rfl

end Step

section Run

theorem run_concat : run (os ++ [o]) = (run os).step o := by
  rw [run, List.foldl_append]
  rfl

theorem run_append_cons {later : List Operation} :
    run (os ++ o :: later) = later.foldl step ((run os).step o) := by
  rw [run, List.foldl_append]
  rfl

theorem successes_concat : p.successes (os ++ [o]) =
    p.successes os ++ if (os.foldl step p).refusal? o = none then [o] else [] := by
  induction os generalizing p with
  | nil =>
    rw [List.nil_append, successes]
    rfl
  | cons a os ih =>
    rw [List.cons_append, successes, successes, ih, List.foldl_cons]
    split <;> rfl

theorem lastValue?_concat : lastValue? n (os ++ [o]) =
    if o.isReset then none else (o.valueFor? n).or (lastValue? n os) := by
  rw [lastValue?, List.reverse_concat, List.takeWhile_cons]
  cases o.isReset with
  | true => rfl
  | false =>
    rw [Bool.not_false, if_pos rfl, List.findSome?_cons, lastValue?]
    cases o.valueFor? n <;> rfl

theorem value?_run : (run os).value? n = lastValue? n (empty.successes os) := by
  induction os using List.reverseRecOn with
  | nil => rfl
  | append_singleton os o ih =>
    rw [run_concat, value?_step, ih, successes_concat, ← run]
    split
    · rw [lastValue?_concat]
    · rw [List.append_nil]

theorem names_run : (run os).names = (os.filterMap Operation.added?).eraseDups := by
  induction os using List.reverseRecOn with
  | nil => rfl
  | append_singleton os o ih =>
    rw [run_concat, names_step, List.filterMap_append, List.eraseDups_append, ← ih]
    cases ho : o.added? with
    | none => simp [ho]
    | some n =>
      simp only [names_add, ih, List.mem_eraseDups, List.filterMap_cons, ho, List.filterMap_nil]
      generalize os.filterMap Operation.added? = ns
      by_cases hn : n ∈ ns <;> simp [List.removeAll, hn, List.eraseDups_cons]

theorem names_prefix_run (p : Parameters) (later : List Operation) :
    p.names <+: (later.foldl step p).names := by
  induction later generalizing p with
  | nil => exact List.prefix_rfl
  | cons o later ih => exact (names_prefix_step p o).trans (ih _)

/-- A handle stays the one of its name, whatever is done next. -/
theorem handle?_foldl_step (later : List Operation) {h : Handle}
    (hn : p.handle? n = some h) :
    (later.foldl step p).handle? n = some h := by
  obtain ⟨hname, hplace⟩ := handle?_eq_some.1 hn
  obtain ⟨rest, hrest⟩ := names_prefix_run p later
  obtain ⟨hlt, -⟩ := List.getElem?_eq_some_iff.1 hplace
  rw [handle?_eq_some, ← hrest, List.getElem?_append_left hlt]
  exact ⟨hname, hplace⟩

end Run

section Commuting

theorem slot?_step_of_ne (ha : a.assigned? = some (m, v)) (hne : m ≠ n) :
    (p.step a).slot? n = p.slot? n := by
  rw [step_of_assigned ha]
  split
  · rw [slot?_fill, if_neg hne.symm]
  · rfl

theorem refusal?_step_of_ne (ha : a.assigned? = some (m, v)) (hb : b.assigned? = some (n, w))
    (hne : m ≠ n) : (p.step a).refusal? b = p.refusal? b :=
  refusal?_congr hb (slot?_step_of_ne ha hne)

theorem step_comm (ha : a.assigned? = some (m, v)) (hb : b.assigned? = some (n, w))
    (hne : m ≠ n) : (p.step a).step b = (p.step b).step a := by
  rw [step_of_assigned hb, refusal?_step_of_ne ha hb hne, step_of_assigned ha,
    step_of_assigned ha (p := p.step b), refusal?_step_of_ne hb ha hne.symm, step_of_assigned hb]
  by_cases ha' : p.refusal? a = none
  · by_cases hb' : p.refusal? b = none
    · simp only [ha', hb', if_true, fill_comm hne]
    · simp only [ha', hb', if_true, if_false]
  · simp only [ha', if_false]

end Commuting

/-- An ordered map as a history leaves it, seen through everything that reads it. -/
structure Follows (p : Parameters) (os : List Operation) : Prop where
  nodup : p.names.Nodup
  /-- The names stand in the order in which they were first registered. -/
  names_eq : p.names = (os.filterMap Operation.added?).eraseDups
  /-- Row and index agree on every place. -/
  lookup_iff : ∀ n i, p.index.lookup n = some i ↔ (p.slots[i]?).map Slot.name = some n
  /-- No place of the index lies outside the row. -/
  lookup_lt : ∀ n i, p.index.lookup n = some i → i < p.slots.length
  value_eq : ∀ n, p.value n = match lastValue? n (empty.successes os) with
    | some v => .ok v
    | none => .error (.unresolvedParameter n)
  bind_fails : ∀ n v e, p.bind n v = .error e ↔
    n ∉ p.names ∧ e = .unknownParameter n ∨ (∃ w, p.value n = .ok w) ∧ e = .alreadyBound n
  rebind_fails : ∀ n v e, p.rebind n v = .error e ↔ n ∉ p.names ∧ e = .unknownParameter n
  /-- A handle that registering gave, at any time, is the one of its name. -/
  handle_eq : ∀ before n after, os = before ++ .add n :: after →
    let h := (run before).handleOf n
    p.handle? n = some h ∧ h.index < p.size ∧ p.get h = p.value n
  /-- A name and a place that do not belong together are refused. -/
  get_refuses : ∀ h : Handle, p.names[h.index]? ≠ some h.name →
    p.get h = .error (.unknownParameter h.name)
  /-- The order of two values for different names does not matter. -/
  comm : ∀ a b m n v w, a.assigned? = some (m, v) → b.assigned? = some (n, w) → m ≠ n →
    (p.step a).step b = (p.step b).step a ∧ (p.step a).refusal? b = p.refusal? b ∧
      (p.step b).refusal? a = p.refusal? a
  unresolved_eq : p.unresolved = p.names.filter fun n => !p.isBound n
  ensureResolved_eq : p.ensureResolved = match p.unresolved.head? with
    | some n => .error (.unresolvedParameter n)
    | none => .ok ()
  /-- A call that fails changes nothing. -/
  unchanged : ∀ o e, (p.apply o).1 = .error e → (p.apply o).2 = p ∧ run (os ++ [o]) = p

/-- Whatever is done to a set of parameters, it stays an ordered map of the names that were
registered to the values that they got last. -/
theorem run_follows (os : List Operation) : (run os).Follows os where
  nodup := nodup_names _
  names_eq := names_run
  lookup_iff n i := by
    rw [← getElem?_names]
    exact place?_eq_some
  lookup_lt n i h := by
    obtain ⟨hlt, -⟩ := List.getElem?_eq_some_iff.1 (place?_eq_some.1 h)
    rwa [names, List.length_map] at hlt
  value_eq n := by
    rw [← value?_run]
    rfl
  bind_fails _ _ _ := bind_eq_error
  rebind_fails _ _ _ := rebind_eq_error
  handle_eq before n after hos := by
    have hn : (run os).handle? n = some ((run before).handleOf n) := by
      rw [hos, run_append_cons]
      exact handle?_foldl_step after handle?_add
    obtain ⟨hname, hplace⟩ := handle?_eq_some.1 hn
    obtain ⟨hlt, -⟩ := List.getElem?_eq_some_iff.1 hplace
    refine ⟨hn, by rwa [names, List.length_map] at hlt, ?_⟩
    rw [get_eq, hname, if_pos hplace]
  get_refuses h hne := by rw [get_eq, if_neg hne]
  comm _ _ _ _ _ _ ha hb hne :=
    ⟨step_comm ha hb hne, refusal?_step_of_ne ha hb hne, refusal?_step_of_ne hb ha hne.symm⟩
  unresolved_eq := unresolved_eq_filter
  ensureResolved_eq := ensureResolved_eq
  unchanged o e h := by
    have hstep := step_of_refusal? (refusal?_eq_some.2 h)
    rw [run_concat]
    exact ⟨hstep, hstep⟩

/-- A name that has a value takes no other before a reset, and its place is not given away. -/
example :
    let before : List Operation := [.add "a", .bind "a" (.int 1), .bind "a" (.int 2), .add "b"]
    let after := before ++ [.reset, .rebind "a" (.int 3), .add "a", .bind "c" (.int 4)]
    (run before).value "a" = .ok (.int 1) ∧ (run after).value "a" = .ok (.int 3) ∧
      (run after).names = ["a", "b"] ∧ (run after).get ⟨"a", 0⟩ = .ok (.int 3) ∧
      (run after).get ⟨"a", 1⟩ = .error (.unknownParameter "a") := by
  exact ⟨rfl, rfl, rfl, rfl, rfl⟩

end Parameters

end StoreQuery

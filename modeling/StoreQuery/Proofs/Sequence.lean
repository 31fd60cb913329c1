import Mathlib.Data.List.Forall2

/-! # Computations in a row

A computation that may fail goes on with the result of the one before it. A row of computations
succeeds exactly if each of them does, and otherwise fails as the first one that fails.
-/

namespace StoreQuery

variable {ε α β : Type}

section Bind

variable {x : Except ε α} {f : α → Except ε β}

theorem bind_eq_ok {b : β} : x >>= f = .ok b ↔ ∃ a, x = .ok a ∧ f a = .ok b := by
  cases x with
  | error => exact ⟨nofun, nofun⟩
  | ok a =>
    refine ⟨fun h => ⟨a, rfl, h⟩, ?_⟩
    rintro ⟨_, ⟨⟩, h⟩
    exact h

theorem bind_eq_error {e : ε} :
    x >>= f = .error e ↔ x = .error e ∨ ∃ a, x = .ok a ∧ f a = .error e := by
  cases x with
  | error e' =>
    constructor
    · rintro ⟨⟩
      exact Or.inl rfl
    · rintro (⟨⟨⟩⟩ | ⟨_, ⟨⟩, _⟩)
      rfl
  | ok a =>
    constructor
    · intro h
      exact Or.inr ⟨a, rfl, h⟩
    · rintro (⟨⟨⟩⟩ | ⟨_, ⟨⟩, h⟩)
      exact h

end Bind

theorem exists_ok_iff {x : Except ε α} {o : Option ε} (h : ∀ e, x = .error e ↔ o = some e) :
    (∃ a, x = .ok a) ↔ o = none := by
  cases x with
  | error e => simp [(h e).1 rfl]
  | ok a =>
    simp only [Except.ok.injEq, exists_eq', true_iff]
    exact Option.eq_none_iff_forall_ne_some.2 fun e he => nomatch (h e).2 he

theorem exists_ok_of_toOption {x : Except ε α} (h : x.toOption.isSome = true) :
    ∃ a, x = .ok a := by
  cases x with
  | error => cases h
  | ok a => exact ⟨a, rfl⟩

section MapError

variable {δ : Type} {x : Except ε α} {f : ε → δ}

theorem mapError_eq_ok {a : α} : x.mapError f = .ok a ↔ x = .ok a := by
  cases x <;> simp [Except.mapError]

theorem mapError_eq_error {d : δ} : x.mapError f = .error d ↔ ∃ e, x = .error e ∧ f e = d := by
  cases x <;> simp [Except.mapError]

end MapError

section Map

variable {f : α → Except ε β} {as : List α}

theorem mapM_eq_ok {bs : List β} :
    as.mapM f = .ok bs ↔ List.Forall₂ (fun a b => f a = .ok b) as bs := by
  induction as generalizing bs with
  | nil =>
    constructor
    · rintro ⟨⟩
      exact .nil
    · rintro ⟨⟩
      rfl
  | cons a as ih =>
    rw [List.mapM_cons, bind_eq_ok]
    constructor
    · rintro ⟨b, hb, h⟩
      obtain ⟨bs, hbs, ⟨⟩⟩ := bind_eq_ok.1 h
      exact .cons hb (ih.1 hbs)
    · rintro (_ | ⟨hb, hbs⟩)
      exact ⟨_, hb, bind_eq_ok.2 ⟨_, ih.2 hbs, rfl⟩⟩

theorem mapM_eq_error {e : ε} :
    as.mapM f = .error e ↔ ∃ before a after, as = before ++ a :: after ∧
      (∀ c ∈ before, ∃ b, f c = .ok b) ∧ f a = .error e := by
  induction as with
  | nil =>
    constructor
    · rintro ⟨⟩
    · rintro ⟨before, a, after, h, -⟩
      simp at h
  | cons d as ih =>
    rw [List.mapM_cons, bind_eq_error]
    constructor
    · rintro (h | ⟨b, hb, h⟩)
      · exact ⟨[], d, as, rfl, nofun, h⟩
      · obtain h | ⟨_, _, ⟨⟩⟩ := bind_eq_error.1 h
        obtain ⟨before, a, after, rfl, hbefore, ha⟩ := ih.1 h
        exact ⟨d :: before, a, after, rfl, List.forall_mem_cons.2 ⟨⟨b, hb⟩, hbefore⟩, ha⟩
    · rintro ⟨before, a, after, has, hbefore, ha⟩
      cases before with
      | nil =>
        cases has
        exact Or.inl ha
      | cons c before =>
        cases has
        obtain ⟨⟨b, hb⟩, hbefore⟩ := List.forall_mem_cons.1 hbefore
        have hfails := ih.2 ⟨before, a, after, rfl, hbefore, ha⟩
        exact Or.inr ⟨b, hb, bind_eq_error.2 (Or.inl hfails)⟩

theorem exists_mem_of_mapM {bs : List β} (h : as.mapM f = .ok bs) {a : α} (ha : a ∈ as) :
    ∃ b ∈ bs, f a = .ok b := by
  have hall := mapM_eq_ok.1 h
  clear h
  induction hall with
  | nil => cases ha
  | @cons c b as bs hb _ ih =>
    rcases List.mem_cons.1 ha with rfl | ha
    · exact ⟨b, List.mem_cons_self, hb⟩
    · obtain ⟨d, hd, hfd⟩ := ih ha
      exact ⟨d, List.mem_cons_of_mem b hd, hfd⟩

end Map

section Faults

/-- A result, or the first of some faults if there are any. -/
def failFirst : List ε → α → Except ε α
  | [], a => .ok a
  | e :: _, _ => .error e

variable {es fs : List ε} {a : α} {b : β}

theorem failFirst_eq_error {e : ε} : failFirst es a = .error e ↔ es.head? = some e := by
  cases es <;> simp [failFirst]

theorem failFirst_eq_ok {a' : α} : failFirst es a = .ok a' ↔ es = [] ∧ a = a' := by
  cases es <;> simp [failFirst]

/-- Of two computations in a row, the faults of the first one come first. -/
theorem failFirst_bind {f : α → Except ε β} (h : f a = failFirst fs b) :
    failFirst es a >>= f = failFirst (es ++ fs) b := by
  cases es with
  | nil => exact h
  | cons => rfl

theorem failFirst_map {f : α → β} : (do return f (← failFirst es a)) = failFirst es (f a) := by
  cases es <;> rfl

theorem forM_eq_failFirst {γ : Type} {as : List γ} {f : γ → Except ε Unit} {g : γ → List ε}
    (h : ∀ a, f a = failFirst (g a) ()) : as.forM f = failFirst (as.flatMap g) () := by
  induction as with
  | nil => rfl
  | cons a as ih =>
    rw [List.forM_eq_forM] at ih ⊢
    rw [List.forM_cons, h a, List.flatMap_cons]
    exact failFirst_bind ih

theorem mapM_eq_failFirst {γ : Type} {as : List γ} {f : γ → Except ε α} {g : γ → List ε}
    {k : γ → α} (h : ∀ a, f a = failFirst (g a) (k a)) :
    as.mapM f = failFirst (as.flatMap g) (as.map k) := by
  induction as with
  | nil => rfl
  | cons a as ih =>
    rw [List.mapM_cons, h a, ih, List.flatMap_cons]
    exact failFirst_bind failFirst_map

end Faults

end StoreQuery

import Mathlib.Data.List.Nodup
import StoreQuery.Parameters

/-! # Laws of parameters

A set of parameters is seen through its names and their values. The index finds every name at its
place and nowhere else, so a slot is the one of its name, and filling it changes the value of this
name alone.
-/

namespace StoreQuery

namespace Change

variable {σ : Type} {r : Change σ} {s : σ}

theorem settled_eq_ok : r.settled = .ok s ↔ r = (.ok (), s) := by
  obtain ⟨_ | _, after⟩ := r <;> simp [settled]

theorem settled_eq_error {e : QueryError} : r.settled = .error e ↔ r.1 = .error e := by
  obtain ⟨_ | _, after⟩ := r <;> simp [settled]

end Change

namespace Parameters

variable {p q : Parameters} {m n : String} {v w : Value} {h : Handle}

theorem place?_eq_some {i : Nat} : p.place? n = some i ↔ p.names[i]? = some n :=
  p.isIndex n i

theorem place?_isSome : (p.place? n).isSome ↔ n ∈ p.names := by
  rw [Option.isSome_iff_exists, List.mem_iff_getElem?]
  exact exists_congr fun _ => place?_eq_some

theorem place?_eq_none : p.place? n = none ↔ n ∉ p.names := by
  rw [← place?_isSome, Option.not_isSome_iff_eq_none]

theorem place?_inj {i : Nat} (hm : p.place? m = some i) (hn : p.place? n = some i) : m = n :=
  Option.some.inj ((place?_eq_some.1 hm).symm.trans (place?_eq_some.1 hn))

theorem nodup_names (p : Parameters) : p.names.Nodup := by
  rw [List.nodup_iff_getElem?_ne_getElem?]
  intro i j hij hj heq
  have hlast : p.names[j]? = some p.names[j] := List.getElem?_eq_getElem hj
  have hplace := place?_eq_some.2 (heq.trans hlast)
  exact Nat.ne_of_lt hij (Option.some.inj (hplace.symm.trans (place?_eq_some.2 hlast)))

theorem getElem?_names (p : Parameters) (i : Nat) : p.names[i]? = (p.slots[i]?).map Slot.name :=
  List.getElem?_map

theorem slot?_eq_some {s : Slot} : p.slot? n = some s ↔ s ∈ p.slots ∧ s.name = n := by
  rw [slot?, Option.bind_eq_some_iff]
  constructor
  · rintro ⟨i, hplace, hs⟩
    rw [place?_eq_some, getElem?_names, hs] at hplace
    exact ⟨List.mem_of_getElem? hs, Option.some.inj hplace⟩
  · rintro ⟨hs, rfl⟩
    obtain ⟨i, hi⟩ := List.mem_iff_getElem?.1 hs
    exact ⟨i, place?_eq_some.2 (by rw [getElem?_names, hi]; rfl), hi⟩

theorem exists_slot (h : n ∈ p.names) : ∃ s, p.slot? n = some s := by
  obtain ⟨s, hs, rfl⟩ := List.mem_map.1 h
  exact ⟨s, slot?_eq_some.2 ⟨hs, rfl⟩⟩

theorem slot?_eq_none : p.slot? n = none ↔ n ∉ p.names := by
  constructor
  · intro h hn
    obtain ⟨s, hs⟩ := exists_slot hn
    cases h.symm.trans hs
  · intro h
    rw [slot?, place?_eq_none.2 h, Option.bind_none]

@[simp] theorem index_fill : (p.fill n v).index = p.index := by
  rw [fill]
  split <;> rfl

@[simp] theorem names_fill : (p.fill n v).names = p.names := by
  rw [fill]
  split
  · exact Slot.map_name_modify_fill ..
  · rfl

theorem place?_fill : (p.fill n v).place? m = p.place? m := by
  rw [place?, index_fill, place?]

theorem slots_fill : (p.fill n v).slots = match p.place? n with
    | some i => p.slots.modify i (·.fill v)
    | none => p.slots := by
  rw [fill]
  cases p.place? n <;> rfl

theorem slot?_fill :
    (p.fill n v).slot? m = if m = n then (p.slot? m).map (·.fill v) else p.slot? m := by
  rw [slot?, place?_fill, slot?]
  cases hm : p.place? m with
  | none => simp
  | some j =>
    cases hn : p.place? n with
    | none =>
      have hne : m ≠ n := by
        rintro rfl
        cases hm.symm.trans hn
      rw [fill, hn, if_neg hne]
    | some i =>
      have hij : i = j ↔ m = n := by
        constructor
        · rintro rfl
          exact place?_inj hm hn
        · rintro rfl
          exact Option.some.inj (hn.symm.trans hm)
      rw [fill, hn]
      simp only [Option.bind_some, List.getElem?_modify, hij]
      split
      · rfl
      · exact Option.map_id_apply

theorem value?_fill_self (h : n ∈ p.names) : (p.fill n v).value? n = some v := by
  obtain ⟨s, hs⟩ := exists_slot h
  rw [value?, slot?_fill, if_pos rfl, hs]
  rfl

theorem value?_fill_of_ne (h : n ≠ m) : (p.fill m v).value? n = p.value? n := by
  rw [value?, slot?_fill, if_neg h, value?]

theorem isSome_value?_fill (hm : m ∈ p.names) (hn : (p.value? n).isSome) :
    ((p.fill m v).value? n).isSome := by
  by_cases heq : n = m
  · rw [heq, value?_fill_self hm]
    rfl
  · rwa [value?_fill_of_ne heq]

theorem fill_comm (hne : m ≠ n) : (p.fill m v).fill n w = (p.fill n w).fill m v := by
  ext1
  · rw [slots_fill, slots_fill, slots_fill, slots_fill, place?_fill, place?_fill]
    cases hm : p.place? m with
    | none => rfl
    | some i =>
      cases hn : p.place? n with
      | none => rfl
      | some j => exact List.modify_modify_ne _ _ _ fun hij => hne (place?_inj hm (hij ▸ hn))
  · rw [index_fill, index_fill, index_fill, index_fill]

theorem mem_unresolved : n ∈ p.unresolved ↔ n ∈ p.names ∧ p.value? n = none := by
  rw [unresolved, List.mem_map]
  constructor
  · rintro ⟨s, hs, rfl⟩
    obtain ⟨hmem, hempty⟩ := List.mem_filter.1 hs
    refine ⟨List.mem_map_of_mem hmem, ?_⟩
    rw [value?, slot?_eq_some.2 ⟨hmem, rfl⟩]
    simpa [Slot.isEmpty] using hempty
  · rintro ⟨hn, hvalue⟩
    obtain ⟨s, hs, rfl⟩ := List.mem_map.1 hn
    rw [value?, slot?_eq_some.2 ⟨hs, rfl⟩, Option.bind_some] at hvalue
    exact ⟨s, List.mem_filter.2 ⟨hs, by simp [Slot.isEmpty, hvalue]⟩, rfl⟩

theorem unresolved_eq_nil : p.unresolved = [] ↔ ∀ n ∈ p.names, (p.value? n).isSome := by
  rw [List.eq_nil_iff_forall_not_mem]
  simp only [mem_unresolved, not_and, Option.isSome_iff_ne_none]

/-- The check fails exactly if a name has no value, and names the first one. -/
theorem ensureResolved_eq : p.ensureResolved =
    match p.unresolved.head? with
    | some n => .error (.unresolvedParameter n)
    | none => .ok () := by
  rw [ensureResolved, unresolved, List.head?_map, List.head?_filter]
  cases p.slots.find? Slot.isEmpty <;> rfl

theorem replace_eq : p.replace n v =
    if n ∈ p.names then (.ok (), p.fill n v) else (.error (.unknownParameter n), p) := by
  rw [replace]
  cases hs : p.slot? n with
  | none => rw [if_neg (slot?_eq_none.1 hs)]
  | some s =>
    obtain ⟨hmem, rfl⟩ := slot?_eq_some.1 hs
    have hn : s.name ∈ p.names := List.mem_map_of_mem hmem
    rw [if_pos hn]

theorem supply_eq : p.supply n v =
    if n ∉ p.names then (.error (.unknownParameter n), p)
    else if (p.value? n).isSome then (.error (.alreadyBound n), p)
    else (.ok (), p.fill n v) := by
  rw [supply, value?]
  cases hs : p.slot? n with
  | none => rw [if_pos (slot?_eq_none.1 hs)]
  | some s =>
    obtain ⟨name, value⟩ := s
    obtain ⟨hmem, rfl⟩ := slot?_eq_some.1 hs
    have hn : name ∈ p.names := List.mem_map_of_mem hmem
    cases value <;> simp [hn]

theorem eq_of_replace_error {e : QueryError} (h : (p.replace n v).1 = .error e) :
    (p.replace n v).2 = p := by
  rw [replace_eq] at *
  split at h
  · cases h
  · next hn => rw [if_neg hn]

theorem eq_of_supply_error {e : QueryError} (h : (p.supply n v).1 = .error e) :
    (p.supply n v).2 = p := by
  rw [supply_eq] at *
  split at h
  · next hn => rw [if_pos hn]
  · next hn =>
    rw [if_neg hn]
    split at h
    · next hv => rw [if_pos hv]
    · cases h

theorem rebind_eq_ok : p.rebind n v = .ok q ↔ n ∈ p.names ∧ q = p.fill n v := by
  rw [rebind, Change.settled_eq_ok, replace_eq]
  split
  · next hn => simp [hn, eq_comm]
  · next hn => simp [hn]

theorem bind_eq_ok :
    p.bind n v = .ok q ↔ n ∈ p.names ∧ p.value? n = none ∧ q = p.fill n v := by
  rw [bind, Change.settled_eq_ok, supply_eq]
  split
  · next hn => simp [hn]
  · next hn =>
    rw [Classical.not_not] at hn
    cases p.value? n <;> simp [hn, eq_comm]

theorem rebind_eq_error {e : QueryError} :
    p.rebind n v = .error e ↔ n ∉ p.names ∧ e = .unknownParameter n := by
  rw [rebind, Change.settled_eq_error, replace_eq]
  split
  · next hn => simp [hn]
  · next hn => simp [hn, eq_comm]

theorem bind_eq_error {e : QueryError} : p.bind n v = .error e ↔
    n ∉ p.names ∧ e = .unknownParameter n ∨ (∃ w, p.value n = .ok w) ∧ e = .alreadyBound n := by
  rw [bind, Change.settled_eq_error, supply, value, value?, ← slot?_eq_none]
  rcases p.slot? n with _ | ⟨_, _ | _⟩ <;> simp [eq_comm]

theorem unresolved_eq_filter : p.unresolved = p.names.filter fun n => !p.isBound n := by
  rw [unresolved, names, List.filter_map]
  congr 1
  apply List.filter_congr
  intro s hs
  rw [Function.comp_apply, isBound, value?, slot?_eq_some.2 ⟨hs, rfl⟩, Option.bind_some]
  cases hv : s.value <;> simp [Slot.isEmpty, hv]

theorem names_add : (p.add n).names = if n ∈ p.names then p.names else p.names ++ [n] := by
  rw [add]
  split
  · next h => rw [if_pos (place?_isSome.1 (Option.isSome_of_eq_some h))]
  · next h =>
    rw [if_neg (place?_eq_none.1 h), names, List.map_append]
    rfl

theorem mem_names_add : m ∈ (p.add n).names ↔ m ∈ p.names ∨ m = n := by
  rw [names_add]
  split
  · next h =>
    constructor
    · exact Or.inl
    · rintro (hm | rfl)
      · exact hm
      · exact h
  · simp

theorem value?_eq_none_of_not_mem (h : n ∉ p.names) : p.value? n = none := by
  rw [value?, slot?_eq_none.2 h, Option.bind_none]

theorem value?_add : (p.add m).value? n = p.value? n := by
  by_cases hm : m ∈ p.names
  · obtain ⟨i, hi⟩ := Option.isSome_iff_exists.1 (place?_isSome.2 hm)
    rw [add]
    split
    · rfl
    · next h => cases h.symm.trans hi
  · have hslots : (p.add m).slots = p.slots ++ [⟨m, none⟩] := by
      rw [add]
      split
      · next h => exact absurd (place?_isSome.1 (Option.isSome_of_eq_some h)) hm
      · rfl
    cases hn : p.slot? n with
    | some s =>
      have hs : (p.add m).slot? n = some s := by
        obtain ⟨hmem, hname⟩ := slot?_eq_some.1 hn
        rw [slot?_eq_some, hslots]
        exact ⟨List.mem_append_left _ hmem, hname⟩
      rw [value?, value?, hs, hn]
    | none =>
      rw [value?_eq_none_of_not_mem (slot?_eq_none.1 hn), value?, Option.bind_eq_none_iff]
      intro s hs
      obtain ⟨hmem, rfl⟩ := slot?_eq_some.1 hs
      rw [hslots, List.mem_append, List.mem_singleton] at hmem
      rcases hmem with hmem | rfl
      · exact absurd (List.mem_map_of_mem hmem) (slot?_eq_none.1 hn)
      · rfl

theorem value?_reset : p.reset.value? n = none := by
  rw [value?, slot?, reset, Option.bind_eq_none_iff]
  intro s hs
  obtain ⟨i, -, hi⟩ := Option.bind_eq_some_iff.1 hs
  rw [List.getElem?_map, Option.map_eq_some_iff] at hi
  obtain ⟨s, -, rfl⟩ := hi
  rfl

theorem handle?_eq_some : p.handle? n = some h ↔ h.name = n ∧ p.names[h.index]? = some n := by
  rw [handle?, Option.map_eq_some_iff]
  constructor
  · rintro ⟨i, hi, rfl⟩
    exact ⟨rfl, place?_eq_some.1 hi⟩
  · rintro ⟨rfl, hi⟩
    exact ⟨h.index, place?_eq_some.2 hi, rfl⟩

theorem handle?_add : (p.add n).handle? n = some (p.handleOf n) := by
  rw [handle?_eq_some, handleOf]
  refine ⟨rfl, ?_⟩
  cases hn : p.place? n with
  | some i =>
    rw [names_add, if_pos (place?_isSome.1 (Option.isSome_of_eq_some hn))]
    exact place?_eq_some.1 hn
  | none =>
    rw [names_add, if_neg (place?_eq_none.1 hn)]
    simp [size, names]

/-- Reading a handle is reading its name, if the name stands at the place of the handle. -/
theorem get_eq : p.get h =
    if p.names[h.index]? = some h.name then p.value h.name
    else .error (.unknownParameter h.name) := by
  rw [get, getElem?_names]
  cases hs : p.slots[h.index]? with
  | none => rfl
  | some s =>
    simp only [Option.map_some, Option.some.injEq]
    split
    · next hname =>
      rw [value, value?, slot?_eq_some.2 ⟨List.mem_of_getElem? hs, hname⟩]
      rfl
    · rfl

theorem mem_names_ofNames {ns : List String} : n ∈ (ofNames ns).names ↔ n ∈ ns := by
  have hfold : ∀ start : Parameters,
      n ∈ (ns.foldl add start).names ↔ n ∈ start.names ∨ n ∈ ns := by
    induction ns with
    | nil => simp
    | cons m ns ih =>
      intro start
      rw [List.foldl_cons, ih, mem_names_add, List.mem_cons, or_assoc]
  simpa [ofNames, empty, names] using hfold empty

end Parameters

end StoreQuery

import StoreQuery.Proofs.Query.Binding
import StoreQuery.Store.Capability

/-! # Binding as substitution

Substitution puts an operand in the place of every parameter, in nested selects as well, and keeps
everything else. Binding is substitution of the values of the parameters. It fails exactly where a
parameter has no value, or where an `in` is left without choices; which of the two, and for which
parameter, depends on nothing but the values of the parameters that the statement mentions.
-/

namespace StoreQuery

section Substitute

variable (σ : String → Operand)

mutual

/-- An operand with other operands in the places of its parameters. -/
def Operand.substitute : Operand → Operand
  | .literal v => .literal v
  | .document j => .document j
  | .parameter n => σ n
  | .list items => .list (Operand.substituteItems items)
  | .nested s => .nested s.substitute

def Operand.substituteItems : List Operand → List Operand
  | [] => []
  | x :: xs => x.substitute :: Operand.substituteItems xs

def Condition.substitute : Condition → Condition
  | .compare n c v => .compare n c v.substitute
  | .within n v => .within n v.substitute
  | .between n low high => .between n low.substitute high.substitute
  | .all cs => .all (Condition.substituteItems cs)
  | .any cs => .any (Condition.substituteItems cs)
  | .not c => .not c.substitute

def Condition.substituteItems : List Condition → List Condition
  | [] => []
  | c :: cs => c.substitute :: Condition.substituteItems cs

def Condition.substituteClause : Option Condition → Option Condition
  | none => none
  | some c => some c.substitute

def Select.substitute : Select → Select
  | ⟨entity, fields, condition, sorts, skip, limit⟩ =>
    ⟨entity, fields, Condition.substituteClause condition, sorts, skip, limit⟩

end

def Payload.substitute : Payload → Payload
  | .assignments conditions => .assignments (Condition.substituteItems σ conditions)
  | .document v => .document (v.substitute σ)

/-- A statement with operands in the places of its parameters. -/
def Statement.substitute : Statement → Statement
  | .select s => .select (s.substitute σ)
  | .insert s => .insert { s with payload := s.payload.substitute σ }
  | .update s => .update { s with payload := s.payload.substitute σ }
  | .delete s => .delete { s with condition := Condition.substituteClause σ s.condition }
  | .get keys => .get (Operand.substituteItems σ keys)
  | .put s => .put { s with key := s.key.substitute σ, value := s.value.substitute σ }
  | .del keys => .del (Operand.substituteItems σ keys)

end Substitute

section Kept

variable {σ : String → Operand}

theorem Condition.operator_substitute {c : Condition} :
    (c.substitute σ).operator = c.operator := by
  cases c <;> rfl

theorem Condition.isLogical_substituteClause {c : Option Condition} :
    (substituteClause σ c).any isLogical = c.any isLogical := by
  cases c with
  | none => rfl
  | some c =>
    show (c.substitute σ).operator.isLogical = c.operator.isLogical
    rw [operator_substitute]

theorem Statement.kind_substitute {s : Statement} : (s.substitute σ).kind = s.kind := by
  cases s <;> rfl

theorem Statement.ttl?_substitute {s : Statement} : (s.substitute σ).ttl? = s.ttl? := by
  cases s <;> rfl

theorem Statement.isLogical_condition?_substitute {s : Statement} :
    (s.substitute σ).condition?.any Condition.isLogical = s.condition?.any Condition.isLogical := by
  cases s with
  | select s =>
    cases s
    exact Condition.isLogical_substituteClause
  | delete _ => exact Condition.isLogical_substituteClause
  | _ => rfl

/-- Substitution keeps the features that a statement requires. -/
theorem Statement.requires_substitute {s : Statement} :
    (s.substitute σ).requires = s.requires := by
  unfold requires
  rw [ttl?_substitute, isLogical_condition?_substitute]
  congr 2
  cases s with
  | select s =>
    cases s
    rfl
  | _ => rfl

end Kept

section Choices

mutual

/-- The operands of every `in` in an operand, those of nested selects included. -/
def Operand.choices : Operand → List Operand
  | .literal _ | .document _ | .parameter _ => []
  | .list items => Operand.choicesOfItems items
  | .nested s => s.choices

def Operand.choicesOfItems : List Operand → List Operand
  | [] => []
  | x :: xs => x.choices ++ Operand.choicesOfItems xs

def Condition.choices : Condition → List Operand
  | .compare _ _ v => v.choices
  | .within _ v => v.choices ++ [v]
  | .between _ low high => low.choices ++ high.choices
  | .all cs | .any cs => Condition.choicesOfItems cs
  | .not c => c.choices

def Condition.choicesOfItems : List Condition → List Operand
  | [] => []
  | c :: cs => c.choices ++ Condition.choicesOfItems cs

def Condition.choicesOfClause : Option Condition → List Operand
  | none => []
  | some c => c.choices

def Select.choices : Select → List Operand
  | ⟨_, _, condition, _, _, _⟩ => Condition.choicesOfClause condition

end

def Payload.choices : Payload → List Operand
  | .assignments conditions => Condition.choicesOfItems conditions
  | .document v => v.choices

/-- The operands of every `in` in a statement, those of nested selects included. -/
def Statement.choices : Statement → List Operand
  | .select s => s.choices
  | .insert s => s.payload.choices
  | .update s => s.payload.choices
  | .delete s => Condition.choicesOfClause s.condition
  | .get keys | .del keys => Operand.choicesOfItems keys
  | .put s => s.key.choices ++ s.value.choices

/-- Whether an operand is a select or a list with members, in any of the forms that a list has. -/
inductive Operand.HasChoices : Operand → Prop where
  | nested (s : Select) : HasChoices (.nested s)
  | list {xs : List Operand} (h : xs ≠ []) : HasChoices (.list xs)
  | array {vs : List Value} (h : vs ≠ []) : HasChoices (.literal (.array vs))
  | json {js : List Json} (h : js ≠ []) : HasChoices (.document (.array js))

end Choices

/-- What stands for a name once the parameters are bound: its value, in the shape of query text. -/
def Parameters.operand (p : Parameters) (name : String) : Operand :=
  match p.value? name with
  | some v => .ofValue v
  | none => .parameter name

/-- Whether every name has a value, and the values leave no `in` without choices. -/
def Parameters.Serves (p : Parameters) (names : List String) (choices : List Operand) : Prop :=
  (∀ n ∈ names, (p.value? n).isSome) ∧ ∀ v ∈ choices, (v.substitute p.operand).HasChoices

/-- Whether a computation gives `a` where `C` holds, and fails where it does not. -/
def GivesIf {ε α : Type} (x : Except ε α) (C : Prop) (a : α) : Prop :=
  ∀ b, x = .ok b ↔ C ∧ b = a

namespace GivesIf

variable {ε α β : Type} {x : Except ε α} {C D : Prop} {a : α}

theorem ok (h : C) : GivesIf (.ok a : Except ε α) C a := by
  intro b
  constructor
  · rintro ⟨⟩
    exact ⟨h, rfl⟩
  · rintro ⟨_, rfl⟩
    rfl

theorem congr (hx : GivesIf x C a) (h : D ↔ C) : GivesIf x D a := by
  intro b
  rw [hx b, h]

theorem bind {f : α → Except ε β} {b : β} (hx : GivesIf x C a) (hf : C → GivesIf (f a) D b) :
    GivesIf (x >>= f) (C ∧ D) b := by
  intro b'
  rw [bind_eq_ok, and_assoc]
  constructor
  · rintro ⟨a', hxa, hfb⟩
    obtain ⟨hC, rfl⟩ := (hx a').1 hxa
    exact ⟨hC, (hf hC b').1 hfb⟩
  · rintro ⟨hC, hDb⟩
    exact ⟨a, (hx a).2 ⟨hC, rfl⟩, (hf hC b').2 hDb⟩

theorem map (hx : GivesIf x C a) (f : α → β) : GivesIf (x >>= fun a => pure (f a)) C (f a) := by
  have h : GivesIf (x >>= fun a => pure (f a)) (C ∧ True) (f a) := hx.bind fun _ => ok trivial
  exact h.congr (and_true C).symm.to_iff

theorem map₂ {γ : Type} {y : Except ε β} {b : β} (hx : GivesIf x C a) (hy : GivesIf y D b)
    (f : α → β → γ) : GivesIf (x >>= fun a => y >>= fun b => pure (f a b)) (C ∧ D) (f a b) :=
  hx.bind fun _ => hy.map (f a)

end GivesIf

variable {p q : Parameters}

theorem Operand.isChoices_iff {v : Operand} (h : v.isParameter = false) :
    v.isChoices = true ↔ v.HasChoices := by
  constructor
  · intro hv
    unfold isChoices at hv
    split at hv
    · cases h
    · exact .nested _
    · exact .list (by simpa using hv)
    · exact .array (by simpa using hv)
    · exact .json (by simpa using hv)
    · cases hv
  · intro hv
    cases hv <;> simp_all [isChoices]

theorem Operand.isParameter_ofValue (v : Value) : (Operand.ofValue v).isParameter = false :=
  Operand.forall_ofValue (P := fun v => v.isParameter = false) (fun _ => rfl) (fun _ => rfl)
    (fun _ _ => rfl) v

theorem Operand.isParameter_substitute {v : Operand} (h : ∀ n ∈ v.mentions, (p.value? n).isSome) :
    (v.substitute p.operand).isParameter = false := by
  cases v with
  | parameter n =>
    obtain ⟨w, hw⟩ := Option.isSome_iff_exists.1 (h n List.mem_cons_self)
    rw [substitute, Parameters.operand, hw]
    exact isParameter_ofValue w
  | _ => rfl

theorem Condition.givesIf_withinOf {n : String} {v : Operand} (h : v.isParameter = false) :
    GivesIf (Condition.withinOf n v) v.HasChoices (.within n v) := by
  intro c
  rw [withinOf, ← Operand.isChoices_iff h]
  split
  · next hv => simp [hv, eq_comm]
  · next hv => simp [hv]

theorem Parameters.givesIf_value (n : String) :
    GivesIf (p.value n >>= fun v => pure (Operand.ofValue v)) (p.Serves [n] []) (p.operand n) := by
  intro w
  rw [StoreQuery.bind_eq_ok, Serves, operand, value, List.forall_mem_singleton]
  cases p.value? n with
  | none => simp
  | some v => simp [pure, Except.pure, eq_comm (a := w)]

theorem Parameters.serves_nil : p.Serves [] [] :=
  ⟨nofun, nofun⟩

theorem Parameters.serves_append {ms ns : List String} {vs ws : List Operand} :
    p.Serves (ms ++ ns) (vs ++ ws) ↔ p.Serves ms vs ∧ p.Serves ns ws := by
  rw [Serves, Serves, Serves, List.forall_mem_append, List.forall_mem_append]
  exact and_and_and_comm

theorem Parameters.serves_append_singleton {ns : List String} {vs : List Operand} {v : Operand} :
    p.Serves ns (vs ++ [v]) ↔ p.Serves ns vs ∧ (v.substitute p.operand).HasChoices := by
  rw [Serves, Serves, List.forall_mem_append, List.forall_mem_singleton, and_assoc]

section GivesIf

open Parameters (serves_nil serves_append serves_append_singleton)

mutual

theorem Operand.givesIf_bind :
    ∀ v : Operand, GivesIf (v.bind p) (p.Serves v.mentions v.choices) (v.substitute p.operand)
  | .literal _ | .document _ => .ok serves_nil
  | .parameter n => Parameters.givesIf_value n
  | .list xs => (Operand.givesIf_bindItems xs).map Operand.list
  | .nested s => s.givesIf_bind.map Operand.nested

theorem Operand.givesIf_bindItems :
    ∀ xs : List Operand, GivesIf (Operand.bindItems p xs)
      (p.Serves (Operand.mentionsOfItems xs) (Operand.choicesOfItems xs))
      (Operand.substituteItems p.operand xs)
  | [] => .ok serves_nil
  | x :: xs => (x.givesIf_bind.map₂ (Operand.givesIf_bindItems xs) List.cons).congr serves_append

theorem Condition.givesIf_bind :
    ∀ c : Condition, GivesIf (c.bind p) (p.Serves c.mentions c.choices) (c.substitute p.operand)
  | .compare n o v => v.givesIf_bind.map (Condition.compare n o)
  | .within _ v =>
    -- The choices are looked at after binding, when they are no parameter any more.
    (v.givesIf_bind.bind fun h =>
      Condition.givesIf_withinOf (Operand.isParameter_substitute h.1)).congr serves_append_singleton
  | .between n low high =>
    (low.givesIf_bind.map₂ high.givesIf_bind (Condition.between n)).congr serves_append
  | .all cs => (Condition.givesIf_bindItems cs).map Condition.all
  | .any cs => (Condition.givesIf_bindItems cs).map Condition.any
  | .not c => c.givesIf_bind.map Condition.not

theorem Condition.givesIf_bindItems :
    ∀ cs : List Condition, GivesIf (Condition.bindItems p cs)
      (p.Serves (Condition.mentionsOfItems cs) (Condition.choicesOfItems cs))
      (Condition.substituteItems p.operand cs)
  | [] => .ok serves_nil
  | c :: cs => (c.givesIf_bind.map₂ (Condition.givesIf_bindItems cs) List.cons).congr serves_append

theorem Condition.givesIf_bindClause :
    ∀ c : Option Condition, GivesIf (Condition.bindClause p c)
      (p.Serves (Condition.mentionsOfClause c) (Condition.choicesOfClause c))
      (Condition.substituteClause p.operand c)
  | none => .ok serves_nil
  | some c => c.givesIf_bind.map some

theorem Select.givesIf_bind :
    ∀ s : Select, GivesIf (s.bind p) (p.Serves s.mentions s.choices) (s.substitute p.operand)
  | ⟨entity, fields, c, sorts, skip, limit⟩ =>
    (Condition.givesIf_bindClause c).map fun d => Select.mk entity fields d sorts skip limit

end

theorem Payload.givesIf_bind (x : Payload) :
    GivesIf (x.bind p) (p.Serves x.mentions x.choices) (x.substitute p.operand) := by
  cases x with
  | assignments cs => exact (Condition.givesIf_bindItems cs).map Payload.assignments
  | document v => exact v.givesIf_bind.map Payload.document

/-- Binding substitutes the values of the parameters, where they serve. -/
theorem Statement.givesIf_bind (s : Statement) :
    GivesIf (s.bind p) (p.Serves s.mentions s.choices) (s.substitute p.operand) := by
  cases s with
  | select s => exact s.givesIf_bind.map Statement.select
  | insert s => exact s.payload.givesIf_bind.map fun payload =>
      Statement.insert { s with payload }
  | update s => exact s.payload.givesIf_bind.map fun payload =>
      Statement.update { s with payload }
  | delete s =>
    exact (Condition.givesIf_bindClause s.condition).map fun condition =>
      Statement.delete { s with condition }
  | get keys => exact (Operand.givesIf_bindItems keys).map Statement.get
  | put s =>
    exact (s.key.givesIf_bind.map₂ s.value.givesIf_bind fun key value =>
      Statement.put { s with key, value }).congr serves_append
  | del keys => exact (Operand.givesIf_bindItems keys).map Statement.del

end GivesIf

section Congr

def Parameters.AgreeOn (p q : Parameters) (names : List String) : Prop :=
  ∀ n ∈ names, p.value? n = q.value? n

theorem Parameters.agreeOn_append {ms ns : List String} :
    p.AgreeOn q (ms ++ ns) ↔ p.AgreeOn q ms ∧ p.AgreeOn q ns :=
  List.forall_mem_append

mutual

theorem Operand.bind_agree :
    ∀ v : Operand, p.AgreeOn q v.mentions → v.bind p = v.bind q
  | .literal _, _ | .document _, _ => rfl
  | .parameter n, h => by
    rw [Operand.bind, Operand.bind, Parameters.value, Parameters.value, h n List.mem_cons_self]
  | .list xs, h => by
    rw [Operand.bind, Operand.bind, Operand.bindItems_agree xs h]
  | .nested s, h => by
    rw [Operand.bind, Operand.bind, s.bind_agree h]

theorem Operand.bindItems_agree : ∀ xs : List Operand,
    p.AgreeOn q (Operand.mentionsOfItems xs) → Operand.bindItems p xs = Operand.bindItems q xs
  | [], _ => rfl
  | x :: xs, h => by
    obtain ⟨hx, hxs⟩ := Parameters.agreeOn_append.1 h
    rw [Operand.bindItems, Operand.bindItems, x.bind_agree hx, Operand.bindItems_agree xs hxs]

theorem Condition.bind_agree :
    ∀ c : Condition, p.AgreeOn q c.mentions → c.bind p = c.bind q
  | .compare _ _ v, h | .within _ v, h => by
    rw [Condition.bind, Condition.bind, v.bind_agree h]
  | .between _ low high, h => by
    obtain ⟨hlow, hhigh⟩ := Parameters.agreeOn_append.1 h
    rw [Condition.bind, Condition.bind, low.bind_agree hlow, high.bind_agree hhigh]
  | .all cs, h | .any cs, h => by
    rw [Condition.bind, Condition.bind, Condition.bindItems_agree cs h]
  | .not c, h => by
    rw [Condition.bind, Condition.bind, c.bind_agree h]

theorem Condition.bindItems_agree : ∀ cs : List Condition,
    p.AgreeOn q (Condition.mentionsOfItems cs) →
      Condition.bindItems p cs = Condition.bindItems q cs
  | [], _ => rfl
  | c :: cs, h => by
    obtain ⟨hc, hcs⟩ := Parameters.agreeOn_append.1 h
    rw [Condition.bindItems, Condition.bindItems, c.bind_agree hc, Condition.bindItems_agree cs hcs]

theorem Condition.bindClause_agree : ∀ c : Option Condition,
    p.AgreeOn q (Condition.mentionsOfClause c) →
      Condition.bindClause p c = Condition.bindClause q c
  | none, _ => rfl
  | some c, h => by
    rw [Condition.bindClause, Condition.bindClause, c.bind_agree h]

theorem Select.bind_agree : ∀ s : Select, p.AgreeOn q s.mentions → s.bind p = s.bind q
  | ⟨_, _, c, _, _, _⟩, h => by
    rw [Select.bind, Select.bind, Condition.bindClause_agree c h]

end

theorem Payload.bind_agree {x : Payload} (h : p.AgreeOn q x.mentions) : x.bind p = x.bind q := by
  cases x with
  | assignments cs => rw [bind, bind, Condition.bindItems_agree cs h]
  | document v => rw [bind, bind, v.bind_agree h]

/-- Binding looks at nothing but the values of the parameters that a statement mentions. -/
theorem Statement.bind_agree {s : Statement} (h : p.AgreeOn q s.mentions) :
    s.bind p = s.bind q := by
  cases s with
  | select s => rw [bind, bind, s.bind_agree h]
  | insert s | update s => rw [bind, bind, Payload.bind_agree h]
  | delete s => rw [bind, bind, Condition.bindClause_agree s.condition h]
  | get keys | del keys => rw [bind, bind, Operand.bindItems_agree keys h]
  | put s =>
    obtain ⟨hkey, hvalue⟩ := Parameters.agreeOn_append.1 h
    rw [bind, bind, s.key.bind_agree hkey, s.value.bind_agree hvalue]

end Congr

section Idempotence

variable (q : Parameters)

theorem Operand.bindItems_eq_self {xs : List Operand} (h : ∀ x ∈ xs, x.bind q = .ok x) :
    Operand.bindItems q xs = .ok xs := by
  induction xs with
  | nil => rfl
  | cons x xs ih =>
    rw [List.forall_mem_cons] at h
    rw [bindItems, h.1, ih h.2]
    rfl

theorem Condition.bindItems_eq_self {cs : List Condition} (h : ∀ c ∈ cs, c.bind q = .ok c) :
    Condition.bindItems q cs = .ok cs := by
  induction cs with
  | nil => rfl
  | cons c cs ih =>
    rw [List.forall_mem_cons] at h
    rw [bindItems, h.1, ih h.2]
    rfl

theorem Condition.bindClause_eq_self {c : Option Condition} (h : ∀ d ∈ c, d.bind q = .ok d) :
    Condition.bindClause q c = .ok c := by
  cases c with
  | none => rfl
  | some c =>
    rw [bindClause, h c rfl]
    rfl

theorem Operand.bind_list_eq_self {xs : List Operand} (h : ∀ x ∈ xs, x.bind q = .ok x) :
    (Operand.list xs).bind q = .ok (.list xs) := by
  rw [bind, bindItems_eq_self q h]
  rfl

theorem Operand.bind_ofValue (v : Value) : (Operand.ofValue v).bind q = .ok (.ofValue v) :=
  Operand.forall_ofValue (P := fun v => v.bind q = .ok v) (fun _ => rfl) (fun _ => rfl)
    (fun _ => bind_list_eq_self q) v

theorem Condition.bind_ofParts_eq_self {o : Connective} {cs : List Condition}
    (h : ∀ c ∈ cs, c.bind q = .ok c) : (o.ofParts cs).bind q = .ok (o.ofParts cs) := by
  cases o <;>
  · rw [Connective.ofParts, bind, bindItems_eq_self q h]
    rfl

theorem right_of_forall₂ {α β : Type} {D : β → Prop} {xs : List α} {ys : List β}
    (h : List.Forall₂ (fun _ y => D y) xs ys) : ∀ y ∈ ys, D y :=
  forall_mem_right_of_forall₂ (fun _ _ hy => hy) h

theorem right_of_rel {α β : Type} {D : β → Prop} {a : Option α} {b : Option β}
    (h : Option.Rel (fun _ y => D y) a b) : ∀ y ∈ b, D y := by
  cases h with
  | none => nofun
  | some hy =>
    rintro _ ⟨⟩
    exact hy

theorem closed_bind_eq_self (p : Parameters) (names : List String) :
    ClosedUnderBinding p names (fun _ w => w.bind q = .ok w) (fun _ d => d.bind q = .ok d)
      (fun _ t => t.bind q = .ok t) where
  literal _ := rfl
  document _ := rfl
  parameter _ _ v _ := Operand.bind_ofValue q v
  list _ _ h := Operand.bind_list_eq_self q (right_of_forall₂ h)
  nested _ t h := by rw [Operand.bind, h]; rfl
  compare _ _ _ _ h := by rw [Condition.bind, h]; rfl
  within n _ w h hchoices := by
    rw [Condition.bind, h]
    exact if_pos hchoices
  between _ _ _ _ _ h h' := by rw [Condition.bind, h, h']; rfl
  parts _ _ _ h := Condition.bind_ofParts_eq_self q (right_of_forall₂ h)
  not _ _ h := by rw [Condition.bind, h]; rfl
  select _ _ _ _ _ _ _ h := by
    rw [Select.bind, Condition.bindClause_eq_self q (right_of_rel h)]
    rfl

theorem Payload.bind_eq_self {x y : Payload}
    (h : Payload.Rel (fun _ w => w.bind q = .ok w) (fun _ d => d.bind q = .ok d) x y) :
    y.bind q = .ok y := by
  cases h with
  | assignments h =>
    rw [bind, Condition.bindItems_eq_self q (right_of_forall₂ h)]
    rfl
  | document h =>
    rw [bind, h]
    rfl

theorem Statement.bind_bind {p : Parameters} {s t : Statement} (ht : s.bind p = .ok t) :
    t.bind q = .ok t := by
  have hrel := (closed_bind_eq_self q p s.mentions).rel_statement (List.Subset.refl _) ht
  cases hrel with
  | select h => rw [bind, h]; rfl
  | insert h | update h => rw [bind, Payload.bind_eq_self q h]; rfl
  | delete h => rw [bind, Condition.bindClause_eq_self q (right_of_rel h)]; rfl
  | get h | del h => rw [bind, Operand.bindItems_eq_self q (right_of_forall₂ h)]; rfl
  | put hk hv => rw [bind, hk, hv]; rfl

end Idempotence

/-- A name that was seen before cannot be the first one with a property. -/
theorem find?_note {f : String → Bool} {n : String} {seen : List String} :
    (note seen n).find? f = (seen ++ [n]).find? f := by
  rw [note]
  split
  · next hn =>
    rw [List.find?_append]
    cases hseen : seen.find? f with
    | some m => rfl
    | none => simpa using List.find?_eq_none.1 hseen n hn
  · rfl

theorem find?_distinct {f : String → Bool} {ns : List String} :
    (distinct ns).find? f = ns.find? f := by
  have hfold : ∀ seen, (ns.foldl note seen).find? f = (seen ++ ns).find? f := by
    induction ns with
    | nil => simp
    | cons n ns ih =>
      intro seen
      rw [List.foldl_cons, ih, List.find?_append, find?_note, ← List.find?_append,
        ← List.append_cons]
  exact hfold []

theorem Parameters.Lacks.find?_eq {n : String} {ns : List String}
    (h : p.Lacks ns (.unresolvedParameter n)) :
    ns.find? (fun m => (p.value? m).isNone) = some n := by
  cases h with
  | @unresolved before _ _ hnames hbefore hn =>
    have hnone : before.find? (fun m => (p.value? m).isNone) = none := by
      simpa [Option.isSome_iff_ne_none] using hbefore
    rw [hnames, List.find?_append, hnone]
    simp [hn]

/-- Binding is substitution of the values of the parameters. It succeeds exactly where every
parameter has a value and every `in` keeps choices. What a statement is bound to mentions no
parameters, and binding changes nothing in it. Only the values of the parameters that the statement
mentions count, and an unresolved parameter is the first of these that has none. -/
theorem Statement.bind_substitutes (s : Statement) (p : Parameters) :
    (∀ t, s.bind p = .ok t ↔
      (∀ n ∈ s.parameters, (p.value? n).isSome) ∧
      (∀ v ∈ s.choices, (v.substitute p.operand).HasChoices) ∧ t = s.substitute p.operand) ∧
    (∀ t, s.bind p = .ok t →
      t.kind = s.kind ∧ t.requires = s.requires ∧ t.ttl? = s.ttl? ∧ t.parameters = [] ∧
      ∀ q, t.bind q = .ok t) ∧
    (∀ q : Parameters, (∀ n ∈ s.parameters, p.value? n = q.value? n) → s.bind p = s.bind q) ∧
    (∀ n, s.bind p = .error (.unresolvedParameter n) →
      s.parameters.find? (fun m => (p.value? m).isNone) = some n) := by
  refine ⟨?_, ?_, ?_, ?_⟩
  · intro t
    rw [s.givesIf_bind t, Parameters.Serves, parameters, and_assoc]
    simp only [mem_distinct]
  · intro t ht
    have hparameters : t.parameters = [] := congrArg distinct (mentions_bind ht)
    obtain ⟨_, rfl⟩ := (s.givesIf_bind t).1 ht
    exact ⟨kind_substitute, requires_substitute, ttl?_substitute, hparameters,
      fun q => bind_bind q ht⟩
  · intro q h
    exact bind_agree fun n hn => h n (mem_distinct.2 hn)
  · intro n h
    rw [parameters, find?_distinct]
    exact (lacks h).find?_eq

/-- The parameter of a nested select is found, and its values are put in its place. -/
theorem Statement.bind_substitutes_nested :
    let choice (v : Operand) : Select :=
      ⟨"users", ["id"], some (.within "group" v), [], 0, 0⟩
    let pick (v : Operand) : Statement :=
      .select ⟨"orders", [], some (.within "user" (.nested (choice v))), [], 0, 0⟩
    let p := (Parameters.ofNames ["groups"]).fill "groups" (.array [.int 1, .int 2])
    (pick (.parameter "groups")).bind p =
      .ok (pick (.list [.literal (.int 1), .literal (.int 2)])) := by
  intro choice pick p
  have hnames : (pick (.parameter "groups")).parameters = ["groups"] := rfl
  have hchoices : (pick (.parameter "groups")).choices =
      [.parameter "groups", .nested (choice (.parameter "groups"))] := rfl
  apply ((Statement.bind_substitutes _ _).1 _).2
  rw [hnames, hchoices, List.forall_mem_singleton, List.forall_mem_cons,
    List.forall_mem_singleton]
  exact ⟨rfl, ⟨.list (List.cons_ne_nil _ _), .nested _⟩, rfl⟩

end StoreQuery

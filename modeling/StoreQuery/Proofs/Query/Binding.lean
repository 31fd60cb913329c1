import StoreQuery.Proofs.Query.Rebuild
import StoreQuery.Query.Binding

/-! # What binding does

Binding goes down an operand, a condition or a select and changes nothing but the parameters, so
what holds of each of its steps holds of the whole. It fails at the first parameter without a value,
or at an `in` whose values are no list with members.
-/

namespace StoreQuery

theorem forall_mem_of_forall₂ {α β : Type} {C : α → Prop} {D : β → Prop} {R : α → β → Prop}
    {xs : List α} {ys : List β} (hR : ∀ x y, R x y → C x → D y) (h : List.Forall₂ R xs ys)
    (hxs : ∀ x ∈ xs, C x) : ∀ y ∈ ys, D y := by
  induction h with
  | nil => nofun
  | cons hxy _ ih =>
    rw [List.forall_mem_cons] at hxs ⊢
    exact ⟨hR _ _ hxy hxs.1, ih hxs.2⟩

theorem forall_mem_right_of_forall₂ {α β : Type} {D : β → Prop} {R : α → β → Prop} {xs : List α}
    {ys : List β} (hR : ∀ x y, R x y → D y) (h : List.Forall₂ R xs ys) : ∀ y ∈ ys, D y :=
  forall_mem_of_forall₂ (C := fun _ => True) (fun x y hxy _ => hR x y hxy) h fun _ _ => trivial

/-- A name after those that were seen, unless it is one of them. -/
def note (seen : List String) (n : String) : List String :=
  if n ∈ seen then seen else seen ++ [n]

theorem distinct_eq_foldl {ns : List String} : distinct ns = ns.foldl note [] := rfl

theorem mem_note {m n : String} {seen : List String} : m ∈ note seen n ↔ m ∈ seen ∨ m = n := by
  rw [note]
  split
  · next hn =>
    constructor
    · exact Or.inl
    · rintro (h | rfl)
      · exact h
      · exact hn
  · rw [List.mem_append, List.mem_singleton]

theorem mem_foldl_note {n : String} {ns seen : List String} :
    n ∈ ns.foldl note seen ↔ n ∈ seen ∨ n ∈ ns := by
  induction ns generalizing seen with
  | nil => simp
  | cons m ns ih => rw [List.foldl_cons, ih, mem_note, List.mem_cons, or_assoc]

theorem mem_distinct {n : String} {ns : List String} : n ∈ distinct ns ↔ n ∈ ns := by
  rw [distinct_eq_foldl, mem_foldl_note]
  simp

namespace Parameters

variable {p : Parameters} {n : String} {v : Value} {e : QueryError}

theorem value_eq_ok : p.value n = .ok v ↔ p.value? n = some v := by
  unfold value
  cases p.value? n <;> simp

theorem value_eq_error :
    p.value n = .error e ↔ p.value? n = none ∧ e = .unresolvedParameter n := by
  unfold value
  cases p.value? n <;> simp [eq_comm]

end Parameters

theorem Operand.ofJsonItems_eq_map (js : List Json) :
    Operand.ofJsonItems js = js.map Operand.ofJson := by
  induction js with
  | nil => rfl
  | cons j js ih => rw [Operand.ofJsonItems, ih, List.map_cons]

theorem Value.ofJsonItems_eq_map (js : List Json) :
    Value.ofJsonItems js = js.map Value.ofJson := by
  induction js with
  | nil => rfl
  | cons j js ih => rw [Value.ofJsonItems, ih, List.map_cons]

mutual

theorem Operand.forall_ofJson {P : Operand → Prop} (literal : ∀ v, P (.literal v))
    (document : ∀ j, P (.document j)) (list : ∀ xs, (∀ x ∈ xs, P x) → P (.list xs)) :
    ∀ j : Json, P (.ofJson j)
  | .null | .bool _ | .number _ | .text _ => literal _
  | .object _ => document _
  | .array items => list _ (Operand.forall_mem_ofJsonItems literal document list items)

theorem Operand.forall_mem_ofJsonItems {P : Operand → Prop} (literal : ∀ v, P (.literal v))
    (document : ∀ j, P (.document j)) (list : ∀ xs, (∀ x ∈ xs, P x) → P (.list xs)) :
    ∀ js : List Json, ∀ x ∈ Operand.ofJsonItems js, P x
  | [] => nofun
  | j :: js => List.forall_mem_cons.2 ⟨Operand.forall_ofJson literal document list j,
      Operand.forall_mem_ofJsonItems literal document list js⟩

end

mutual

/-- What holds of literals and documents, and of lists as far as it holds of their items, holds of
every value in the shape of query text. -/
theorem Operand.forall_ofValue {P : Operand → Prop} (literal : ∀ v, P (.literal v))
    (document : ∀ j, P (.document j)) (list : ∀ xs, (∀ x ∈ xs, P x) → P (.list xs)) :
    ∀ v : Value, P (.ofValue v)
  | .null | .bool _ | .int _ | .float _ | .text _ => literal _
  | .json j => Operand.forall_ofJson literal document list j
  | .array items => list _ (Operand.forall_mem_ofValues literal document list items)

theorem Operand.forall_mem_ofValues {P : Operand → Prop} (literal : ∀ v, P (.literal v))
    (document : ∀ j, P (.document j)) (list : ∀ xs, (∀ x ∈ xs, P x) → P (.list xs)) :
    ∀ vs : List Value, ∀ x ∈ Operand.ofValues vs, P x
  | [] => nofun
  | v :: vs => List.forall_mem_cons.2 ⟨Operand.forall_ofValue literal document list v,
      Operand.forall_mem_ofValues literal document list vs⟩

end

section Mentions

theorem Operand.mentionsOfItems_eq {xs : List Operand} :
    Operand.mentionsOfItems xs = xs.flatMap Operand.mentions := by
  induction xs with
  | nil => rfl
  | cons x xs ih => rw [Operand.mentionsOfItems, ih, List.flatMap_cons]

theorem Operand.mentions_ofValue (v : Value) : (Operand.ofValue v).mentions = [] := by
  apply Operand.forall_ofValue (P := fun v => v.mentions = [])
  · exact fun _ => rfl
  · exact fun _ => rfl
  · intro xs h
    exact Operand.mentionsOfItems_eq.trans (List.flatMap_eq_nil_iff.2 h)

theorem Condition.mentionsOfItems_eq {cs : List Condition} :
    Condition.mentionsOfItems cs = cs.flatMap Condition.mentions := by
  induction cs with
  | nil => rfl
  | cons c cs ih => rw [Condition.mentionsOfItems, ih, List.flatMap_cons]

theorem Condition.mentions_ofParts {o : Connective} {cs : List Condition} :
    (o.ofParts cs).mentions = cs.flatMap Condition.mentions := by
  cases o <;> exact Condition.mentionsOfItems_eq

end Mentions

variable {p : Parameters} {names : List String} {P : Operand → Operand → Prop}
  {Q : Condition → Condition → Prop} {R : Select → Select → Prop}

/-- Whether relations between operands, conditions and selects and what they are bound to hold, as
far as they hold for the parts. Only parameters of the given names are mentioned. -/
structure ClosedUnderBinding (p : Parameters) (names : List String)
    (P : Operand → Operand → Prop) (Q : Condition → Condition → Prop)
    (R : Select → Select → Prop) : Prop where
  literal : ∀ v, P (.literal v) (.literal v)
  document : ∀ j, P (.document j) (.document j)
  parameter : ∀ n ∈ names, ∀ v, p.value? n = some v → P (.parameter n) (.ofValue v)
  list : ∀ xs ys, List.Forall₂ P xs ys → P (.list xs) (.list ys)
  nested : ∀ s t, R s t → P (.nested s) (.nested t)
  compare : ∀ n o v w, P v w → Q (.compare n o v) (.compare n o w)
  within : ∀ n v w, P v w → w.isChoices = true → Q (.within n v) (.within n w)
  between : ∀ n v w v' w', P v w → P v' w' → Q (.between n v v') (.between n w w')
  parts : ∀ (o : Connective) cs ds, List.Forall₂ Q cs ds → Q (o.ofParts cs) (o.ofParts ds)
  not : ∀ c d, Q c d → Q (.not c) (.not d)
  select : ∀ entity fields c d sorts skip limit, Option.Rel Q c d →
    R ⟨entity, fields, c, sorts, skip, limit⟩ ⟨entity, fields, d, sorts, skip, limit⟩

namespace ClosedUnderBinding

mutual

theorem rel_operand (h : ClosedUnderBinding p names P Q R) :
    ∀ v w : Operand, v.mentions ⊆ names → v.bind p = .ok w → P v w
  | .literal v, _, _, hw => by
    cases hw
    exact h.literal v
  | .document j, _, _, hw => by
    cases hw
    exact h.document j
  | .parameter n, _, hn, hw => by
    obtain ⟨v, hv, ⟨⟩⟩ := bind_eq_ok.1 hw
    exact h.parameter n (hn List.mem_cons_self) v (Parameters.value_eq_ok.1 hv)
  | .list xs, _, hn, hw => by
    obtain ⟨ys, hys, ⟨⟩⟩ := bind_eq_ok.1 hw
    exact h.list xs ys (h.rel_operands xs ys hn hys)
  | .nested s, _, hn, hw => by
    obtain ⟨t, ht, ⟨⟩⟩ := bind_eq_ok.1 hw
    exact h.nested s t (h.rel_select s t hn ht)

theorem rel_operands (h : ClosedUnderBinding p names P Q R) :
    ∀ xs ys : List Operand, Operand.mentionsOfItems xs ⊆ names →
      Operand.bindItems p xs = .ok ys → List.Forall₂ P xs ys
  | [], _, _, hys => by
    cases hys
    exact .nil
  | x :: xs, _, hn, hcons => by
    obtain ⟨hx, hxs⟩ := List.append_subset.1 hn
    obtain ⟨y, hy, hcons⟩ := bind_eq_ok.1 hcons
    obtain ⟨ys, hys, ⟨⟩⟩ := bind_eq_ok.1 hcons
    exact .cons (h.rel_operand x y hx hy) (h.rel_operands xs ys hxs hys)

theorem rel_condition (h : ClosedUnderBinding p names P Q R) :
    ∀ c d : Condition, c.mentions ⊆ names → c.bind p = .ok d → Q c d
  | .compare n o v, _, hn, hd => by
    obtain ⟨w, hw, ⟨⟩⟩ := bind_eq_ok.1 hd
    exact h.compare n o v w (h.rel_operand v w hn hw)
  | .within n v, d, hn, hd => by
    obtain ⟨w, hw, hd⟩ := bind_eq_ok.1 hd
    rw [Condition.withinOf] at hd
    split at hd
    · next hchoices =>
      cases hd
      exact h.within n v w (h.rel_operand v w hn hw) hchoices
    · cases hd
  | .between n v v', _, hn, hd => by
    obtain ⟨hv, hv'⟩ := List.append_subset.1 hn
    obtain ⟨w, hw, hd⟩ := bind_eq_ok.1 hd
    obtain ⟨w', hw', ⟨⟩⟩ := bind_eq_ok.1 hd
    exact h.between n v w v' w' (h.rel_operand v w hv hw) (h.rel_operand v' w' hv' hw')
  | .all cs, _, hn, hd => by
    obtain ⟨ds, hds, ⟨⟩⟩ := bind_eq_ok.1 hd
    exact h.parts .and cs ds (h.rel_conditions cs ds hn hds)
  | .any cs, _, hn, hd => by
    obtain ⟨ds, hds, ⟨⟩⟩ := bind_eq_ok.1 hd
    exact h.parts .or cs ds (h.rel_conditions cs ds hn hds)
  | .not c, _, hn, hnot => by
    obtain ⟨d, hd, ⟨⟩⟩ := bind_eq_ok.1 hnot
    exact h.not c d (h.rel_condition c d hn hd)

theorem rel_conditions (h : ClosedUnderBinding p names P Q R) :
    ∀ cs ds : List Condition, Condition.mentionsOfItems cs ⊆ names →
      Condition.bindItems p cs = .ok ds → List.Forall₂ Q cs ds
  | [], _, _, hds => by
    cases hds
    exact .nil
  | c :: cs, _, hn, hcons => by
    obtain ⟨hc, hcs⟩ := List.append_subset.1 hn
    obtain ⟨d, hd, hcons⟩ := bind_eq_ok.1 hcons
    obtain ⟨ds, hds, ⟨⟩⟩ := bind_eq_ok.1 hcons
    exact .cons (h.rel_condition c d hc hd) (h.rel_conditions cs ds hcs hds)

theorem rel_clause (h : ClosedUnderBinding p names P Q R) :
    ∀ c d : Option Condition, Condition.mentionsOfClause c ⊆ names →
      Condition.bindClause p c = .ok d → Option.Rel Q c d
  | none, _, _, hd => by
    cases hd
    exact .none
  | some c, _, hn, hsome => by
    obtain ⟨d, hd, ⟨⟩⟩ := bind_eq_ok.1 hsome
    exact .some (h.rel_condition c d hn hd)

theorem rel_select (h : ClosedUnderBinding p names P Q R) :
    ∀ s t : Select, s.mentions ⊆ names → s.bind p = .ok t → R s t
  | ⟨entity, fields, c, sorts, skip, limit⟩, _, hn, ht => by
    obtain ⟨d, hd, ⟨⟩⟩ := bind_eq_ok.1 ht
    exact h.select entity fields c d sorts skip limit (h.rel_clause c d hn hd)

end

end ClosedUnderBinding

def Statement.payload? : Statement → Option Payload
  | insert s => some s.payload
  | update s => some s.payload
  | _ => none

inductive Payload.Rel (P : Operand → Operand → Prop) (Q : Condition → Condition → Prop) :
    Payload → Payload → Prop where
  | assignments {cs ds : List Condition} (h : List.Forall₂ Q cs ds) :
      Rel P Q (.assignments cs) (.assignments ds)
  | document {v w : Operand} (h : P v w) : Rel P Q (.document v) (.document w)

inductive Statement.Rel (P : Operand → Operand → Prop) (Q : Condition → Condition → Prop)
    (R : Select → Select → Prop) : Statement → Statement → Prop where
  | select {s t : Select} (h : R s t) : Rel P Q R (.select s) (.select t)
  | insert {entity : String} {x y : Payload} {ttl : Option Lifetime} (h : Payload.Rel P Q x y) :
      Rel P Q R (.insert ⟨entity, x, ttl⟩) (.insert ⟨entity, y, ttl⟩)
  | update {entity : String} {x y : Payload} (h : Payload.Rel P Q x y) :
      Rel P Q R (.update ⟨entity, x⟩) (.update ⟨entity, y⟩)
  | delete {entity : String} {fields : List String} {c d : Option Condition}
      (h : Option.Rel Q c d) :
      Rel P Q R (.delete ⟨entity, fields, c⟩) (.delete ⟨entity, fields, d⟩)
  | get {ks ls : List Operand} (h : List.Forall₂ P ks ls) : Rel P Q R (.get ks) (.get ls)
  | put {k l v w : Operand} {ttl : Option Lifetime} (hk : P k l) (hv : P v w) :
      Rel P Q R (.put ⟨k, v, ttl⟩) (.put ⟨l, w, ttl⟩)
  | del {ks ls : List Operand} (h : List.Forall₂ P ks ls) : Rel P Q R (.del ks) (.del ls)

namespace ClosedUnderBinding

variable (h : ClosedUnderBinding p names P Q R)

include h

theorem rel_payload {x y : Payload} (hn : x.mentions ⊆ names) (hy : x.bind p = .ok y) :
    Payload.Rel P Q x y := by
  cases x with
  | assignments cs =>
    obtain ⟨ds, hds, ⟨⟩⟩ := bind_eq_ok.1 hy
    exact .assignments (h.rel_conditions cs ds hn hds)
  | document v =>
    obtain ⟨w, hw, ⟨⟩⟩ := bind_eq_ok.1 hy
    exact .document (h.rel_operand v w hn hw)

theorem rel_statement {s t : Statement} (hn : s.mentions ⊆ names) (ht : s.bind p = .ok t) :
    Statement.Rel P Q R s t := by
  cases s with
  | select s =>
    obtain ⟨t, hs, ⟨⟩⟩ := bind_eq_ok.1 ht
    exact .select (h.rel_select s t hn hs)
  | insert s =>
    obtain ⟨x, hx, ⟨⟩⟩ := bind_eq_ok.1 ht
    exact .insert (h.rel_payload hn hx)
  | update s =>
    obtain ⟨x, hx, ⟨⟩⟩ := bind_eq_ok.1 ht
    exact .update (h.rel_payload hn hx)
  | delete s =>
    obtain ⟨d, hd, ⟨⟩⟩ := bind_eq_ok.1 ht
    exact .delete (h.rel_clause s.condition d hn hd)
  | get ks =>
    obtain ⟨ls, hls, ⟨⟩⟩ := bind_eq_ok.1 ht
    exact .get (h.rel_operands ks ls hn hls)
  | put s =>
    obtain ⟨hk, hv⟩ := List.append_subset.1 hn
    obtain ⟨l, hl, hput⟩ := bind_eq_ok.1 ht
    obtain ⟨w, hw, ⟨⟩⟩ := bind_eq_ok.1 hput
    exact .put (h.rel_operand s.key l hk hl) (h.rel_operand s.value w hv hw)
  | del ks =>
    obtain ⟨ls, hls, ⟨⟩⟩ := bind_eq_ok.1 ht
    exact .del (h.rel_operands ks ls hn hls)

end ClosedUnderBinding

theorem Statement.Rel.kind_eq {s t : Statement} (h : s.Rel P Q R t) : t.kind = s.kind := by
  cases h <;> rfl

section Mentions

theorem flatMap_eq_nil_of_forall₂ {α β : Type} {f : α → List β} {xs ys : List α}
    (h : List.Forall₂ (fun _ y => f y = []) xs ys) : ys.flatMap f = [] :=
  List.flatMap_eq_nil_iff.2 (forall_mem_right_of_forall₂ (fun _ _ hy => hy) h)

theorem forall_mem_flatMap_of_forall₂ {α β : Type} {f : α → List β} {C : β → Prop}
    {xs ys : List α} (h : List.Forall₂ (fun x _ => ∀ b ∈ f x, C b) xs ys) :
    ∀ b ∈ xs.flatMap f, C b := by
  induction h with
  | nil => nofun
  | cons hx _ ih =>
    rw [List.flatMap_cons, List.forall_mem_append]
    exact ⟨hx, ih⟩

theorem closed_mentions_eq_nil (p : Parameters) (names : List String) :
    ClosedUnderBinding p names (fun _ w => w.mentions = []) (fun _ d => d.mentions = [])
      (fun _ t => t.mentions = []) where
  literal _ := rfl
  document _ := rfl
  parameter _ _ v _ := Operand.mentions_ofValue v
  list _ _ h := Operand.mentionsOfItems_eq.trans (flatMap_eq_nil_of_forall₂ h)
  nested _ _ h := h
  compare _ _ _ _ h := h
  within _ _ _ h _ := h
  between _ _ _ _ _ h h' := List.append_eq_nil_iff.2 ⟨h, h'⟩
  parts _ _ _ h := Condition.mentions_ofParts.trans (flatMap_eq_nil_of_forall₂ h)
  not _ _ h := h
  select _ _ _ _ _ _ _ h := by
    cases h with
    | none => rfl
    | some h => exact h

theorem closed_mentions_isSome (p : Parameters) (names : List String) :
    ClosedUnderBinding p names (fun v _ => ∀ n ∈ v.mentions, (p.value? n).isSome)
      (fun c _ => ∀ n ∈ c.mentions, (p.value? n).isSome)
      (fun s _ => ∀ n ∈ s.mentions, (p.value? n).isSome) where
  literal _ := nofun
  document _ := nofun
  parameter n _ v hv m hm := by
    rw [List.mem_singleton.1 hm, hv]
    rfl
  list xs _ h := by
    show ∀ n ∈ Operand.mentionsOfItems xs, _
    rw [Operand.mentionsOfItems_eq]
    exact forall_mem_flatMap_of_forall₂ h
  nested _ _ h := h
  compare _ _ _ _ h := h
  within _ _ _ h _ := h
  between _ _ _ _ _ h h' := List.forall_mem_append.2 ⟨h, h'⟩
  parts _ _ _ h := Condition.mentions_ofParts ▸ forall_mem_flatMap_of_forall₂ h
  not _ _ h := h
  select _ _ _ _ _ _ _ h := by
    cases h with
    | none => nofun
    | some h => exact h

theorem Statement.mentions_bind {s t : Statement} (ht : s.bind p = .ok t) : t.mentions = [] := by
  have hrel := (closed_mentions_eq_nil p s.mentions).rel_statement (List.Subset.refl _) ht
  cases hrel with
  | select h => exact h
  | insert h | update h =>
    cases h with
    | assignments h => exact Condition.mentionsOfItems_eq.trans (flatMap_eq_nil_of_forall₂ h)
    | document h => exact h
  | delete h =>
    cases h with
    | none => rfl
    | some h => exact h
  | get h | del h => exact Operand.mentionsOfItems_eq.trans (flatMap_eq_nil_of_forall₂ h)
  | put hk hv => exact List.append_eq_nil_iff.2 ⟨hk, hv⟩

theorem Statement.kind_bind {s t : Statement} (ht : s.bind p = .ok t) : t.kind = s.kind :=
  ((closed_mentions_eq_nil p s.mentions).rel_statement (List.Subset.refl _) ht).kind_eq

end Mentions

/-- Why the values of some names, in their order, cannot be put in their places: one of the names
has no value and those before it do, or the values of an `in` are no choices. -/
inductive Parameters.Lacks (p : Parameters) (names : List String) : QueryError → Prop where
  | unresolved {before after : List String} {n : String} (hnames : names = before ++ n :: after)
      (hbefore : ∀ m ∈ before, (p.value? m).isSome) (hn : p.value? n = none) :
      p.Lacks names (.unresolvedParameter n)
  | noChoices {field : String} : p.Lacks names (.meaning (.noChoices field))

namespace Parameters.Lacks

variable {ms ns : List String} {e : QueryError}

theorem append_right (h : p.Lacks ms e) : p.Lacks (ms ++ ns) e := by
  cases h with
  | noChoices => exact .noChoices
  | unresolved hnames hbefore hn =>
    rw [hnames, List.append_assoc, List.cons_append]
    exact .unresolved rfl hbefore hn

theorem append_left (hms : ∀ m ∈ ms, (p.value? m).isSome) (h : p.Lacks ns e) :
    p.Lacks (ms ++ ns) e := by
  cases h with
  | noChoices => exact .noChoices
  | unresolved hnames hbefore hn =>
    rw [hnames, ← List.append_assoc]
    exact .unresolved rfl (List.forall_mem_append.2 ⟨hms, hbefore⟩) hn

theorem value?_eq_none {n : String} (h : p.Lacks ns (.unresolvedParameter n)) :
    n ∈ ns ∧ p.value? n = none := by
  cases h with
  | unresolved hnames _ hn =>
    subst hnames
    exact ⟨List.mem_append_right _ List.mem_cons_self, hn⟩

end Parameters.Lacks

section Lacks

variable {e : QueryError}

theorem Parameters.lacks_of_value {n : String} (h : p.value n = .error e) : p.Lacks [n] e := by
  obtain ⟨hn, rfl⟩ := Parameters.value_eq_error.1 h
  exact .unresolved (List.nil_append [n]).symm nofun hn

mutual

theorem Operand.lacks : ∀ v : Operand, v.bind p = .error e → p.Lacks v.mentions e
  | .literal _, h | .document _, h => by cases h
  | .parameter n, h => by
    obtain h | ⟨_, _, ⟨⟩⟩ := bind_eq_error.1 h
    exact Parameters.lacks_of_value h
  | .list xs, h => by
    obtain h | ⟨_, _, ⟨⟩⟩ := bind_eq_error.1 h
    exact Operand.lacks_items xs h
  | .nested s, h => by
    obtain h | ⟨_, _, ⟨⟩⟩ := bind_eq_error.1 h
    exact s.lacks h

theorem Operand.lacks_items : ∀ xs : List Operand,
    Operand.bindItems p xs = .error e → p.Lacks (Operand.mentionsOfItems xs) e
  | [], h => by cases h
  | x :: xs, h => by
    obtain h | ⟨y, hy, h⟩ := bind_eq_error.1 h
    · exact (x.lacks h).append_right
    · have hx := (closed_mentions_isSome p x.mentions).rel_operand x y (List.Subset.refl _) hy
      obtain h | ⟨_, _, ⟨⟩⟩ := bind_eq_error.1 h
      exact (Operand.lacks_items xs h).append_left hx

theorem Condition.lacks : ∀ c : Condition, c.bind p = .error e → p.Lacks c.mentions e
  | .compare _ _ v, h => by
    obtain h | ⟨_, _, ⟨⟩⟩ := bind_eq_error.1 h
    exact v.lacks h
  | .within _ v, h => by
    obtain h | ⟨w, _, h⟩ := bind_eq_error.1 h
    · exact v.lacks h
    · rw [Condition.withinOf] at h
      split at h <;> cases h
      exact .noChoices
  | .between _ low high, h => by
    obtain h | ⟨l, hl, h⟩ := bind_eq_error.1 h
    · exact (low.lacks h).append_right
    · have hlow := (closed_mentions_isSome p low.mentions).rel_operand low l
        (List.Subset.refl _) hl
      obtain h | ⟨_, _, ⟨⟩⟩ := bind_eq_error.1 h
      exact (high.lacks h).append_left hlow
  | .all cs, h | .any cs, h => by
    obtain h | ⟨_, _, ⟨⟩⟩ := bind_eq_error.1 h
    exact Condition.lacks_items cs h
  | .not c, h => by
    obtain h | ⟨_, _, ⟨⟩⟩ := bind_eq_error.1 h
    exact c.lacks h

theorem Condition.lacks_items : ∀ cs : List Condition,
    Condition.bindItems p cs = .error e → p.Lacks (Condition.mentionsOfItems cs) e
  | [], h => by cases h
  | c :: cs, h => by
    obtain h | ⟨d, hd, h⟩ := bind_eq_error.1 h
    · exact (c.lacks h).append_right
    · have hc := (closed_mentions_isSome p c.mentions).rel_condition c d (List.Subset.refl _) hd
      obtain h | ⟨_, _, ⟨⟩⟩ := bind_eq_error.1 h
      exact (Condition.lacks_items cs h).append_left hc

theorem Condition.lacks_clause : ∀ c : Option Condition,
    Condition.bindClause p c = .error e → p.Lacks (Condition.mentionsOfClause c) e
  | none, h => by cases h
  | some c, h => by
    obtain h | ⟨_, _, ⟨⟩⟩ := bind_eq_error.1 h
    exact c.lacks h

theorem Select.lacks : ∀ s : Select, s.bind p = .error e → p.Lacks s.mentions e
  | ⟨_, _, c, _, _, _⟩, h => by
    obtain h | ⟨_, _, ⟨⟩⟩ := bind_eq_error.1 h
    exact Condition.lacks_clause c h

end

theorem Payload.lacks {x : Payload} (h : x.bind p = .error e) : p.Lacks x.mentions e := by
  cases x with
  | assignments cs =>
    obtain h | ⟨_, _, ⟨⟩⟩ := bind_eq_error.1 h
    exact Condition.lacks_items cs h
  | document v =>
    obtain h | ⟨_, _, ⟨⟩⟩ := bind_eq_error.1 h
    exact v.lacks h

/-- Binding a statement fails at the first parameter without a value, unless it fails at an `in`. -/
theorem Statement.lacks {s : Statement} (h : s.bind p = .error e) : p.Lacks s.mentions e := by
  cases s with
  | select s =>
    obtain h | ⟨_, _, ⟨⟩⟩ := bind_eq_error.1 h
    exact s.lacks h
  | insert s | update s =>
    obtain h | ⟨_, _, ⟨⟩⟩ := bind_eq_error.1 h
    exact Payload.lacks h
  | delete s =>
    obtain h | ⟨_, _, ⟨⟩⟩ := bind_eq_error.1 h
    exact Condition.lacks_clause s.condition h
  | get ks | del ks =>
    obtain h | ⟨_, _, ⟨⟩⟩ := bind_eq_error.1 h
    exact Operand.lacks_items ks h
  | put s =>
    obtain h | ⟨l, hl, h⟩ := bind_eq_error.1 h
    · exact (s.key.lacks h).append_right
    · -- The key was bound, so that its parameters have values.
      have hkey := (closed_mentions_isSome p s.key.mentions).rel_operand s.key l
        (List.Subset.refl _) hl
      obtain h | ⟨_, _, ⟨⟩⟩ := bind_eq_error.1 h
      exact (s.value.lacks h).append_left hkey

end Lacks

end StoreQuery

import StoreQuery.Proofs.Query.Canonical
import StoreQuery.Proofs.Query.Substitution

/-! # The values of an `in`

The values of an `in` are a list with members, or come from a nested select. They may be written in
parentheses, in braces or in brackets, or be bound to a parameter. All of these are read as a list
of values but one: what is written in brackets is a document, and stays a document when it is read.
-/

namespace StoreQuery

open Grammar

mutual

def Operand.hasSelect : Operand → Bool
  | .literal _ | .parameter _ | .document _ => false
  | .list items => Operand.anyHasSelect items
  | .nested _ => true

def Operand.anyHasSelect : List Operand → Bool
  | [] => false
  | x :: xs => x.hasSelect || Operand.anyHasSelect xs

end

theorem Operand.choicesOfItems_eq {xs : List Operand} :
    Operand.choicesOfItems xs = xs.flatMap Operand.choices := by
  induction xs with
  | nil => rfl
  | cons x xs ih => rw [Operand.choicesOfItems, ih, List.flatMap_cons]

theorem Condition.choicesOfItems_eq {cs : List Condition} :
    Condition.choicesOfItems cs = cs.flatMap Condition.choices := by
  induction cs with
  | nil => rfl
  | cons c cs ih => rw [Condition.choicesOfItems, ih, List.flatMap_cons]

theorem Condition.choices_ofParts {o : Connective} {cs : List Condition} :
    (o.ofParts cs).choices = cs.flatMap Condition.choices := by
  cases o <;> exact Condition.choicesOfItems_eq

theorem Operand.choices_ofValue (v : Value) : (Operand.ofValue v).choices = [] := by
  apply Operand.forall_ofValue (P := fun v => v.choices = [])
  · exact fun _ => rfl
  · exact fun _ => rfl
  · intro xs h
    exact Operand.choicesOfItems_eq.trans (List.flatMap_eq_nil_iff.2 h)

theorem exists_mem_of_forall₂ {α β : Type} {S : α → β → Prop} {xs : List α} {ys : List β}
    (h : List.Forall₂ S xs ys) {y : β} (hy : y ∈ ys) : ∃ x ∈ xs, S x y := by
  induction h with
  | nil => cases hy
  | @cons x _ _ _ hxy _ ih =>
    rcases List.mem_cons.1 hy with rfl | hy
    · exact ⟨x, List.mem_cons_self, hxy⟩
    · obtain ⟨z, hz, hzy⟩ := ih hy
      exact ⟨z, List.mem_cons_of_mem _ hz, hzy⟩

theorem forall₂_flatMap {α β γ δ : Type} {f : α → List γ} {g : β → List δ} {S : γ → δ → Prop}
    {xs : List α} {ys : List β} (h : List.Forall₂ (fun x y => List.Forall₂ S (f x) (g y)) xs ys) :
    List.Forall₂ S (xs.flatMap f) (ys.flatMap g) := by
  induction h with
  | nil => exact .nil
  | cons hxy _ ih =>
    rw [List.flatMap_cons, List.flatMap_cons]
    exact List.rel_append hxy ih

section Bind

variable {p : Parameters} {names : List String} {P : Operand → Operand → Prop}
  {Q : Condition → Condition → Prop} {R : Select → Select → Prop}

/-- Values of `in`s and what they are bound to, in their order: they are related, and what they are
bound to can be the values of an `in`. -/
def BoundChoices (P : Operand → Operand → Prop) : List Operand → List Operand → Prop :=
  List.Forall₂ fun v w => P v w ∧ w.isChoices = true

/-- What binding keeps for operands, it keeps for the values of every `in`. -/
theorem ClosedUnderBinding.choices (h : ClosedUnderBinding p names P Q R) :
    ClosedUnderBinding p names (fun v w => P v w ∧ BoundChoices P v.choices w.choices)
      (fun c d => Q c d ∧ BoundChoices P c.choices d.choices)
      (fun s t => R s t ∧ BoundChoices P s.choices t.choices) where
  literal v := ⟨h.literal v, .nil⟩
  document j := ⟨h.document j, .nil⟩
  parameter n hn v hv := by
    refine ⟨h.parameter n hn v hv, ?_⟩
    rw [Operand.choices_ofValue]
    exact .nil
  list xs ys hxs := by
    refine ⟨h.list xs ys (hxs.imp fun _ _ hxy => hxy.1), ?_⟩
    show BoundChoices P (Operand.choicesOfItems xs) (Operand.choicesOfItems ys)
    rw [Operand.choicesOfItems_eq, Operand.choicesOfItems_eq]
    exact forall₂_flatMap (hxs.imp fun _ _ hxy => hxy.2)
  nested s t hst := ⟨h.nested s t hst.1, hst.2⟩
  compare n o v w hvw := ⟨h.compare n o v w hvw.1, hvw.2⟩
  within n v w hvw hw :=
    ⟨h.within n v w hvw.1 hw, List.rel_append hvw.2 (.cons ⟨hvw.1, hw⟩ .nil)⟩
  between n v w v' w' hvw hvw' :=
    ⟨h.between n v w v' w' hvw.1 hvw'.1, List.rel_append hvw.2 hvw'.2⟩
  parts o cs ds hcs := by
    refine ⟨h.parts o cs ds (hcs.imp fun _ _ hcd => hcd.1), ?_⟩
    rw [Condition.choices_ofParts, Condition.choices_ofParts]
    exact forall₂_flatMap (hcs.imp fun _ _ hcd => hcd.2)
  not c d hcd := ⟨h.not c d hcd.1, hcd.2⟩
  select entity fields c d sorts skip limit hcd := by
    cases hcd with
    | none => exact ⟨h.select entity fields none none sorts skip limit .none, .nil⟩
    | @some c d hcd =>
      exact ⟨h.select entity fields (some c) (some d) sorts skip limit (.some hcd.1), hcd.2⟩

theorem Statement.boundChoices {s b : Statement} (h : ClosedUnderBinding p s.mentions P Q R)
    (hb : s.bind p = .ok b) : BoundChoices P s.choices b.choices := by
  have hrel := h.choices.rel_statement (List.Subset.refl _) hb
  have hoperands : ∀ {xs ys : List Operand},
      List.Forall₂ (fun v w => P v w ∧ BoundChoices P v.choices w.choices) xs ys →
        BoundChoices P (Operand.choicesOfItems xs) (Operand.choicesOfItems ys) := by
    intro xs ys hxs
    rw [Operand.choicesOfItems_eq, Operand.choicesOfItems_eq]
    exact forall₂_flatMap (hxs.imp fun _ _ hxy => hxy.2)
  cases hrel with
  | select hst => exact hst.2
  | insert hxy | update hxy =>
    cases hxy with
    | @assignments cs ds hcs =>
      show BoundChoices P (Condition.choicesOfItems cs) (Condition.choicesOfItems ds)
      rw [Condition.choicesOfItems_eq, Condition.choicesOfItems_eq]
      exact forall₂_flatMap (hcs.imp fun _ _ hcd => hcd.2)
    | document hvw => exact hvw.2
  | delete hcd =>
    cases hcd with
    | none => exact .nil
    | some hcd => exact hcd.2
  | get hks | del hks => exact hoperands hks
  | put hk hv => exact List.rel_append hk.2 hv.2

/-- A value never becomes an array as a document: it becomes a list. -/
theorem Operand.ofValue_ne_array (v : Value) (js : List Json) :
    Operand.ofValue v ≠ .document (.array js) := by
  cases v with
  | json j => cases j <;> nofun
  | _ => nofun

/-- An array as a document was one before binding. -/
theorem closed_array (p : Parameters) (names : List String) :
    ClosedUnderBinding p names (fun v w => ∀ js, w = .document (.array js) → v = w)
      (fun _ _ => True) (fun _ _ => True) where
  literal _ := nofun
  document _ _ _ := rfl
  parameter _ _ v _ js h := absurd h (Operand.ofValue_ne_array v js)
  list _ _ _ := nofun
  nested _ _ _ := nofun
  compare _ _ _ _ _ := trivial
  within _ _ _ _ _ := trivial
  between _ _ _ _ _ _ _ := trivial
  parts _ _ _ _ := trivial
  not _ _ _ := trivial
  select _ _ _ _ _ _ _ _ := trivial

end Bind

mutual

theorem Operand.exists_read : ∀ v : Operand, v.mentions = [] → v.hasSelect = false →
    ∃ w, v.read = .ok w
  | .literal v, _, _ => ⟨v, rfl⟩
  | .document j, _, _ => ⟨.json j, rfl⟩
  | .parameter _, hv, _ => by cases hv
  | .nested _, _, hv => by cases hv
  | .list items, hv, hs => by
    obtain ⟨ws, hws, -⟩ := Operand.exists_readItems items hv hs
    exact ⟨.array ws, by rw [Operand.read, hws]⟩

theorem Operand.exists_readItems : ∀ vs : List Operand, Operand.mentionsOfItems vs = [] →
    Operand.anyHasSelect vs = false → ∃ ws, Operand.readItems vs = .ok ws ∧ ws.length = vs.length
  | [], _, _ => ⟨[], rfl, rfl⟩
  | v :: vs, hv, hs => by
    obtain ⟨hv, hvs⟩ := List.append_eq_nil_iff.1 hv
    obtain ⟨hsv, hsvs⟩ := Bool.or_eq_false_iff.1 hs
    obtain ⟨w, hw⟩ := v.exists_read hv hsv
    obtain ⟨ws, hws, hlen⟩ := Operand.exists_readItems vs hvs hsvs
    exact ⟨w :: ws, by rw [Operand.readItems, hw, hws], congrArg Nat.succ hlen⟩

end

/-- The values of an `in` are read as a list with members, unless they are an array as a
document. -/
theorem Operand.read_of_isChoices {v : Operand} (h : v.isChoices = true) (hv : v.mentions = [])
    (hs : v.hasSelect = false) :
    (∃ items, items ≠ [] ∧ v.read = .ok (.array items)) ∨
      ∃ js, js ≠ [] ∧ v = .document (.array js) := by
  cases v with
  | parameter => cases hv
  | nested => cases hs
  | list xs =>
    obtain ⟨ws, hws, hlen⟩ := Operand.exists_readItems xs hv hs
    refine .inl ⟨ws, ?_, by rw [read, hws]⟩
    rintro rfl
    cases xs with
    | nil => cases h
    | cons => cases hlen
  | literal a =>
    cases a with
    | array items =>
      refine .inl ⟨items, ?_, rfl⟩
      rintro rfl
      cases h
    | _ => cases h
  | document j =>
    cases j with
    | array js =>
      refine .inr ⟨js, ?_, rfl⟩
      rintro rfl
      cases h
    | _ => cases h

theorem Statement.read_boundChoices {s b : Statement} {p : Parameters} (hb : s.bind p = .ok b)
    {w : Operand} (hw : w ∈ b.choices) (hs : w.hasSelect = false) :
    (∃ items, items ≠ [] ∧ w.read = .ok (.array items)) ∨
      w ∈ s.choices ∧ ∃ js, js ≠ [] ∧ w = .document (.array js) := by
  obtain ⟨_, -, hmentions, hchoices⟩ :=
    exists_mem_of_forall₂ (boundChoices (closed_mentions_eq_nil p s.mentions) hb) hw
  rcases Operand.read_of_isChoices hchoices hmentions hs with h | ⟨js, hjs, hdoc⟩
  · exact .inl h
  · obtain ⟨v, hv, hkept, -⟩ :=
      exists_mem_of_forall₂ (boundChoices (closed_array p s.mentions) hb) hw
    exact .inr ⟨hkept js hdoc ▸ hv, js, hjs, hdoc⟩

section Documents

mutual

theorem Operand.read_ofJson : ∀ j : Json, (Operand.ofJson j).read = .ok (.ofJson j)
  | .null | .bool _ | .number _ | .text _ | .object _ => rfl
  | .array js => by
    rw [Operand.ofJson, Operand.read, Operand.readItems_ofJsonItems js]
    rfl

theorem Operand.readItems_ofJsonItems : ∀ js : List Json,
    Operand.readItems (Operand.ofJsonItems js) = .ok (Value.ofJsonItems js)
  | [] => rfl
  | j :: js => by
    rw [Operand.ofJsonItems, Operand.readItems, Operand.read_ofJson j,
      Operand.readItems_ofJsonItems js]
    rfl

end

mutual

theorem Operand.ofValue_ofJson : ∀ j : Json, Operand.ofValue (.ofJson j) = .ofJson j
  | .null | .bool _ | .text _ | .object _ | .number (.float _) => rfl
  | .number (.integer n) => by
    rw [Operand.ofJson, Value.ofJson]
    cases n.toInt64? <;> rfl
  | .array js => congrArg Operand.list (Operand.ofValues_ofJsonItems js)

theorem Operand.ofValues_ofJsonItems : ∀ js : List Json,
    Operand.ofValues (Value.ofJsonItems js) = Operand.ofJsonItems js
  | [] => rfl
  | j :: js => congrArg₂ _ (Operand.ofValue_ofJson j) (Operand.ofValues_ofJsonItems js)

end

end Documents

section Spelled

/-- All records of an entity whose field is one of some values. -/
def Select.ofChoices (entity field : String) (values : Operand) : Select :=
  ⟨entity, [], some (.within field values), [], 0, 0⟩

def Select.choicesText (entity field values : String) : String :=
  "select * from " ++ Name.render entity ++ " where " ++ Name.render field ++ " in " ++ values

variable {entity field values : String} {v : Operand} {j : Json} {js : List Json}

theorem Spells.parse_choices (h : Spells .choices values.toList v) (hentity : entity ≠ "")
    (hfield : field ≠ "") :
    (parseStatement (Select.choicesText entity field values)).result =
      .ok (.select (.ofChoices entity field v)) := by
  obtain ⟨ts, hts, hv⟩ := h
  have hin : Writes ((Name.render field).toList ++ (" in ".toList ++ values.toList))
      (.name field :: .keyword .inWord :: ts) :=
    (Writes.name hfield).append ((Closes.spaced .inWord).append_writes hts) rfl
  have hcondition : Produces .condition (.name field :: .keyword .inWord :: ts)
      (.within field v) := by
    rw [← List.append_nil (.name field :: .keyword .inWord :: ts)]
    exact .condition (.test (.within hv)) .linksNil
  have hfilter : Spells .filter (" where ".toList ++ ((Name.render field).toList ++
      (" in ".toList ++ values.toList))) (some (.within field v)) :=
    ⟨_, (Closes.spaced .whereWord).append_writes hin, .filter hcondition⟩
  have hordering : Spells .ordering [] [] := ⟨[], .nil, .noOrdering⟩
  have hpaging : Spells .paging [] (0, 0) := ⟨[], .nil, .noPaging⟩
  have hstar : Spells .fields "*".toList [] := ⟨_, (Closes.mark (s := .star) rfl).writes, .star⟩
  obtain ⟨us, hus, hselect⟩ :=
    Spells.select hentity hstar hfilter hordering hpaging rfl rfl rfl
  have hheading : "select * from ".toList = "select ".toList ++ ("*".toList ++ " from ".toList) :=
    rfl
  have hwrites : Writes (Select.choicesText entity field values).toList us := by
    unfold Select.choicesText
    simp only [String.toList_append]
    rw [hheading]
    simp only [List.append_nil, List.append_assoc] at hus ⊢
    exact hus
  apply parseStatement_of_produces
  rw [hwrites.tokens_eq]
  exact .statement (.bodySelect hselect)

theorem Spells.scalars (hjs : ∀ k ∈ j :: js, k.Readable ∧ ¬k.IsContainer) :
    let row := ", ".intercalate ((j :: js).map Json.compact)
    let listed := Operand.list ((j :: js).map Operand.ofJson)
    Spells .choices ("(" ++ row ++ ")").toList listed ∧
      Spells .choices ("\x7b" ++ row ++ "\x7d").toList listed ∧
      Spells .choices ("[" ++ row ++ "]").toList (.document (.array (j :: js))) := by
  intro row listed
  have hvalue : ∀ k ∈ j :: js, Spells .value k.compact.toList (.ofJson k) := by
    intro k hk
    obtain ⟨hreadable, hscalar⟩ := hjs k hk
    have heq : Operand.written k = .ofJson k := by
      cases k <;> first | rfl | exact absurd trivial hscalar
    exact heq ▸ Spells.written hreadable
  have hdocument : ∀ k ∈ j :: js, Spells .document k.compact.toList k := by
    intro k hk
    obtain ⟨ts, hts, hk⟩ := Json.exists_derived k (hjs k hk).1
    exact ⟨ts, hts, hk.document⟩
  rw [List.forall_mem_cons] at hvalue hdocument
  obtain ⟨ts, us, hrow, hfirst, hothers⟩ := intercalate_map hvalue.2 hvalue.1
  obtain ⟨ts', us', hrow', hfirst', hothers'⟩ := intercalate hdocument.2 hdocument.1
  simp only [String.toList_append]
  refine ⟨⟨_, hrow.between (l := .leftParen) (r := .rightParen) rfl rfl rfl,
    .choicesList hfirst hothers⟩, ⟨_, hrow.between (l := .leftBrace) (r := .rightBrace) rfl rfl rfl,
    .choicesSingle (.valueList hfirst hothers) rfl⟩, ⟨_,
    hrow'.between (l := .leftBracket) (r := .rightBracket) rfl rfl rfl,
    .choicesSingle (.valueArray (.array hfirst' hothers')) rfl⟩⟩

theorem Spells.parameterChoices {name : String} (h : Name.isDotted true name.toList = true) :
    Spells .choices ("@" ++ name).toList (.parameter name) :=
  ⟨_, by rw [String.toList_append]; exact Writes.parameter h, .choicesSingle .valueParameter rfl⟩

theorem Select.bind_ofChoices {name : String} {p : Parameters} {a : Value}
    (ha : p.value? name = some a) (hchoices : (Operand.ofValue a).isChoices = true) :
    (Statement.select (.ofChoices entity field (.parameter name))).bind p =
      .ok (.select (.ofChoices entity field (.ofValue a))) := by
  have hoperand : (Operand.parameter name).bind p = .ok (.ofValue a) :=
    bind_eq_ok.2 ⟨a, Parameters.value_eq_ok.2 ha, rfl⟩
  have hcondition : (Condition.within field (.parameter name)).bind p =
      .ok (.within field (.ofValue a)) :=
    bind_eq_ok.2 ⟨_, hoperand, if_pos hchoices⟩
  have hselect : (ofChoices entity field (.parameter name)).bind p =
      .ok (ofChoices entity field (.ofValue a)) :=
    bind_eq_ok.2 ⟨_, bind_eq_ok.2 ⟨_, hcondition, rfl⟩, rfl⟩
  exact bind_eq_ok.2 ⟨_, hselect, rfl⟩

theorem parse_scalars (hentity : entity ≠ "") (hfield : field ≠ "") (hne : js ≠ [])
    (hjs : ∀ k ∈ js, k.Readable ∧ ¬k.IsContainer) :
    let row := ", ".intercalate (js.map Json.compact)
    let parsed (values : String) := (parseStatement (Select.choicesText entity field values)).result
    let choosing (v : Operand) := Statement.select (.ofChoices entity field v)
    parsed ("(" ++ row ++ ")") = .ok (choosing (.list (js.map Operand.ofJson))) ∧
      parsed ("\x7b" ++ row ++ "\x7d") = .ok (choosing (.list (js.map Operand.ofJson))) ∧
      parsed ("[" ++ row ++ "]") = .ok (choosing (.document (.array js))) := by
  cases js with
  | nil => exact absurd rfl hne
  | cons j js =>
    obtain ⟨hparens, hbraces, hbrackets⟩ := Spells.scalars hjs
    exact ⟨hparens.parse_choices hentity hfield, hbraces.parse_choices hentity hfield,
      hbrackets.parse_choices hentity hfield⟩

theorem Select.bind_scalars {name : String} {p : Parameters} (hne : js ≠ [])
    (hp : p.value? name = some (.array (js.map Value.ofJson)) ∨
      p.value? name = some (.json (.array js))) :
    (Statement.select (.ofChoices entity field (.parameter name))).bind p =
      .ok (.select (.ofChoices entity field (.list (js.map Operand.ofJson)))) := by
  have hlisted : Operand.ofJson (.array js) = .list (js.map Operand.ofJson) :=
    congrArg Operand.list (Operand.ofJsonItems_eq_map js)
  have hchoices : (Operand.list (js.map Operand.ofJson)).isChoices = true := by
    cases js with
    | nil => exact absurd rfl hne
    | cons => rfl
  have hbound : ∃ a, p.value? name = some a ∧
      Operand.ofValue a = .list (js.map Operand.ofJson) := by
    rcases hp with hp | hp
    · refine ⟨_, hp, ?_⟩
      rw [← Value.ofJsonItems_eq_map, ← hlisted]
      exact Operand.ofValue_ofJson (.array js)
    · exact ⟨_, hp, hlisted⟩
  obtain ⟨a, ha, hof⟩ := hbound
  rw [← hof] at hchoices ⊢
  exact Select.bind_ofChoices ha hchoices

theorem Operand.read_scalars (js : List Json) :
    (Operand.list (js.map Operand.ofJson)).read = .ok (.array (js.map Value.ofJson)) := by
  rw [← Operand.ofJsonItems_eq_map, ← Value.ofJsonItems_eq_map]
  exact Operand.read_ofJson (.array js)

end Spelled

/-- The values of every `in` of a bound statement, where no select is among them, are read as a list
with members, but for those that the text has in brackets. Scalars in parentheses, in braces or
bound to a parameter are read as the same list, and in brackets as a document with the same
items. -/
theorem read_choices (s b : Statement) (p : Parameters) (entity field name : String)
    (js : List Json) :
    (s.bind p = .ok b → ∀ w ∈ b.choices, w.hasSelect = false →
      (∃ items, items ≠ [] ∧ w.read = .ok (.array items)) ∨
        w ∈ s.choices ∧ ∃ ks, ks ≠ [] ∧ w = .document (.array ks) ∧
          w.read = .ok (.json (.array ks))) ∧
    (entity ≠ "" → field ≠ "" → js ≠ [] → (∀ j ∈ js, j.Readable ∧ ¬j.IsContainer) →
      let row := ", ".intercalate (js.map Json.compact)
      let parsed (values : String) :=
        (parseStatement (Select.choicesText entity field values)).result
      let choosing (v : Operand) := Statement.select (.ofChoices entity field v)
      let listed := Operand.list (js.map Operand.ofJson)
      parsed ("(" ++ row ++ ")") = .ok (choosing listed) ∧
      parsed ("\x7b" ++ row ++ "\x7d") = .ok (choosing listed) ∧
      parsed ("[" ++ row ++ "]") = .ok (choosing (.document (.array js))) ∧
      (Name.isDotted true name.toList = true →
        p.value? name = some (.array (js.map Value.ofJson)) ∨
          p.value? name = some (.json (.array js)) →
        parsed ("@" ++ name) = .ok (choosing (.parameter name)) ∧
          (choosing (.parameter name)).bind p = .ok (choosing listed)) ∧
      listed.read = .ok (.array (js.map Value.ofJson)) ∧
      (Operand.document (.array js)).read = .ok (.json (.array js))) := by
  constructor
  · intro hb w hw hs
    rcases Statement.read_boundChoices hb hw hs with h | ⟨hmem, ks, hks, rfl⟩
    · exact .inl h
    · exact .inr ⟨hmem, ks, hks, rfl, rfl⟩
  · intro hentity hfield hne hjs row parsed choosing listed
    obtain ⟨hparens, hbraces, hbrackets⟩ := parse_scalars hentity hfield hne hjs
    refine ⟨hparens, hbraces, hbrackets, ?_, Operand.read_scalars js, rfl⟩
    intro hname hp
    exact ⟨(Spells.parameterChoices hname).parse_choices hentity hfield,
      Select.bind_scalars hne hp⟩

theorem read_choices_nested :
    let js : List Json := [.null, .text "x"]
    let p := (Parameters.ofNames ["p"]).fill "p" (.json (.array js))
    let values := Operand.list [.literal .null, .literal (.text "x")]
    let within (v : Operand) := Statement.delete ⟨"T", [], some (.not (.within "b" (.nested
      ⟨"U", ["c"], some (.within "d" v), [], 0, 0⟩)))⟩
    let row := ", ".intercalate (js.map Json.compact)
    let parsed (values : String) := (parseStatement (Select.choicesText "T" "a" values)).result
    let choosing (v : Operand) := Statement.select (.ofChoices "T" "a" v)
    (within (.parameter "p")).bind p = .ok (within values) ∧
      values ∈ (within values).choices ∧ values.hasSelect = false ∧
      ((∃ items, items ≠ [] ∧ values.read = .ok (.array items)) ∨
        values ∈ (within (.parameter "p")).choices ∧ ∃ ks, ks ≠ [] ∧
          values = .document (.array ks) ∧ values.read = .ok (.json (.array ks))) ∧
      parsed ("(" ++ row ++ ")") = .ok (choosing values) ∧
      parsed ("\x7b" ++ row ++ "\x7d") = .ok (choosing values) ∧
      parsed ("[" ++ row ++ "]") = .ok (choosing (.document (.array js))) ∧
      parsed "@p" = .ok (choosing (.parameter "p")) ∧
      (choosing (.parameter "p")).bind p = .ok (choosing values) ∧
      values.read = .ok (.array [.null, .text "x"]) := by
  intro js p values within row parsed choosing
  have hbind : (within (.parameter "p")).bind p = .ok (within values) := rfl
  have hmem : values ∈ (within values).choices := List.mem_cons_self
  have hscalars : ∀ j ∈ js, j.Readable ∧ ¬j.IsContainer := by
    simp only [js, List.forall_mem_cons]
    exact ⟨⟨trivial, nofun⟩, ⟨trivial, nofun⟩, nofun⟩
  obtain ⟨hchoices, hspelled⟩ :=
    read_choices (within (.parameter "p")) (within values) p "T" "a" "p" js
  obtain ⟨hparens, hbraces, hbrackets, hparameter, hread, -⟩ :=
    hspelled (by decide) (by decide) nofun hscalars
  obtain ⟨hparsed, hbound⟩ := hparameter (by decide) (.inr rfl)
  exact ⟨hbind, hmem, rfl, hchoices hbind _ hmem rfl, hparens, hbraces, hbrackets, hparsed,
    hbound, hread⟩

/-- Not all values of an `in` are read as a list: those in brackets are a document. -/
theorem not_read_every_choice :
    ¬∀ (text : String) (s b : Statement) (p : Parameters), (parseStatement text).result = .ok s →
      s.bind p = .ok b → ∀ w ∈ b.choices, w.hasSelect = false →
        ∃ items, items ≠ [] ∧ w.read = .ok (.array items) := by
  intro h
  have hone : ∀ j ∈ [Json.ofInt64 1], j.Readable ∧ ¬j.IsContainer :=
    List.forall_mem_singleton.2 ⟨⟨1, rfl⟩, nofun⟩
  have hparse := @Spells.parse_choices "T" "a" _ _ (Spells.scalars hone).2.2 (by decide) (by decide)
  obtain ⟨items, -, hread⟩ := h _ _ _ .empty hparse rfl _ List.mem_cons_self rfl
  cases hread

end StoreQuery

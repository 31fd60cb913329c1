import StoreQuery.Proofs.Grammar.Derivation
import StoreQuery.Proofs.Query.Flat
import StoreQuery.Proofs.Token.Stream

/-! # What texts can stand for

Statements have more values than texts: a text gives the members of an object sorted keys, joins
nested conjunctions into one, and writes no empty names. Whatever can be derived from tokens that
were read is of this kind.
-/

namespace StoreQuery

namespace Json

section Insert

variable {key : String} {value : Json} {members others : List (String × Json)}

theorem mem_insert {m : String × Json} (h : m ∈ insert key value members) :
    m = (key, value) ∨ m ∈ members := by
  induction members with
  | nil => exact Or.inl (List.mem_singleton.1 h)
  | cons n members ih =>
    rw [insert] at h
    split at h
    · exact List.mem_cons.1 h
    · split at h
      · rcases List.mem_cons.1 h with h | h
        · exact Or.inl h
        · exact Or.inr (List.mem_cons_of_mem _ h)
      · rcases List.mem_cons.1 h with h | h
        · exact Or.inr (h ▸ List.mem_cons_self)
        · exact (ih h).imp_right (List.mem_cons_of_mem _)

/-- Whether each key stands once, in increasing order. -/
def IsSorted (members : List (String × Json)) : Prop :=
  members.Pairwise fun m n => m.1 < n.1

theorem IsSorted.insert (h : IsSorted members) : IsSorted (Json.insert key value members) := by
  induction h with
  | nil => exact List.pairwise_singleton ..
  | @cons m members hm hmembers ih =>
    obtain ⟨k, v⟩ := m
    rw [Json.insert]
    split
    · next hlt =>
      refine .cons ?_ (.cons hm hmembers)
      intro n hn
      rcases List.mem_cons.1 hn with rfl | hn
      · exact hlt
      · exact String.lt_trans hlt (hm n hn)
    · next hnlt =>
      split
      · next heq =>
        subst heq
        exact .cons hm hmembers
      · next hne =>
        refine .cons ?_ ih
        intro n hn
        rcases mem_insert hn with rfl | hn
        · rcases String.le_total key k with hle | hle
          · exact absurd (String.le_antisymm hle hnlt) hne
          · refine Decidable.not_not.1 fun hcon => ?_
            exact hne (String.le_antisymm hcon hle)
        · exact hm n hn

theorem insert_of_lt (h : ∀ m ∈ members, m.1 < key) :
    insert key value members = members ++ [(key, value)] := by
  induction members with
  | nil => rfl
  | cons m members ih =>
    have hm := h m List.mem_cons_self
    rw [insert, if_neg (String.lt_asymm hm), if_neg (String.ne_of_lt hm).symm,
      ih fun n hn => h n (List.mem_cons_of_mem _ hn)]
    rfl

theorem foldl_insert (h : IsSorted (others ++ members)) :
    members.foldl (fun sorted (key, value) => insert key value sorted) others =
      others ++ members := by
  induction members generalizing others with
  | nil => exact (List.append_nil others).symm
  | cons m members ih =>
    obtain ⟨k, v⟩ := m
    have hm : ∀ n ∈ others, n.1 < k := fun n hn =>
      (List.pairwise_append.1 h).2.2 n hn (k, v) List.mem_cons_self
    show List.foldl _ (insert k v others) members = _
    rw [insert_of_lt hm, ih]
    · rw [List.append_assoc]
      rfl
    · rw [List.append_assoc]
      exact h

theorem ofMembers_of_isSorted (h : IsSorted members) : ofMembers members = .object members := by
  have hnil : IsSorted ([] ++ members) := h
  exact congrArg Json.object (foldl_insert hnil)

end Insert

mutual

/-- Whether a document is one that query text can give: its integers are signed words, and the keys
of its objects are sorted. -/
def Readable : Json → Prop
  | null | bool _ | text _ | number (.float _) => True
  | number (.integer n) => ∃ m : Int64, n = .ofInt64 m
  | array items => AllReadable items
  | object members => IsSorted members ∧ MembersReadable members

def AllReadable : List Json → Prop
  | [] => True
  | j :: js => Readable j ∧ AllReadable js

def MembersReadable : List (String × Json) → Prop
  | [] => True
  | (_, j) :: members => Readable j ∧ MembersReadable members

end

theorem membersReadable_iff {members : List (String × Json)} :
    MembersReadable members ↔ ∀ m ∈ members, m.2.Readable := by
  induction members with
  | nil => simp [MembersReadable]
  | cons m members ih => simp [MembersReadable, ih]

theorem MembersReadable.insert {key : String} {value : Json} {members : List (String × Json)}
    (h : MembersReadable members) (hv : value.Readable) :
    MembersReadable (Json.insert key value members) := by
  rw [membersReadable_iff] at *
  intro m hm
  rcases mem_insert hm with rfl | hm
  · exact hv
  · exact h m hm

theorem readable_ofMembers {members : List (String × Json)} (h : MembersReadable members) :
    (ofMembers members).Readable := by
  have hfold : ∀ others, IsSorted others → MembersReadable others →
      IsSorted (members.foldl (fun sorted (key, value) => insert key value sorted) others) ∧
        MembersReadable
          (members.foldl (fun sorted (key, value) => insert key value sorted) others) := by
    induction members with
    | nil => exact fun _ hsorted hall => ⟨hsorted, hall⟩
    | cons m members ih =>
      intro others hsorted hall
      exact ih h.2 _ hsorted.insert (hall.insert h.1)
  exact hfold [] .nil trivial

def IsContainer : Json → Prop
  | array _ | object _ => True
  | _ => False

end Json

/-- Whether a value is written as one token, or as a minus and a token. -/
def Value.IsScalar : Value → Prop
  | null | bool _ | int _ | text _ | float (.finite _) => True
  | _ => False

mutual

def Operand.Readable : Operand → Prop
  | .literal v => v.IsScalar
  | .parameter n => Name.isDotted true n.toList = true
  | .document j => j.IsContainer ∧ j.Readable
  | .list items => items ≠ [] ∧ Operand.AllReadable items
  | .nested s => s.Readable

def Operand.AllReadable : List Operand → Prop
  | [] => True
  | x :: xs => x.Readable ∧ Operand.AllReadable xs

/-- Whether a condition is one that query text can give: it has no empty names, and neither a
conjunction nor a disjunction has fewer than two parts or a part of its own kind. -/
def Condition.Readable : Condition → Prop
  | .compare n _ v => n ≠ "" ∧ v.Readable
  | .within n v => n ≠ "" ∧ v.isChoices = true ∧ v.Readable
  | .between n low high => n ≠ "" ∧ low.Readable ∧ high.Readable
  | .all cs => 2 ≤ cs.length ∧ (∀ c ∈ cs, c.operator ≠ .and) ∧ Condition.AllReadable cs
  | .any cs => 2 ≤ cs.length ∧ (∀ c ∈ cs, c.operator ≠ .or) ∧ Condition.AllReadable cs
  | .not c => c.Readable

def Condition.AllReadable : List Condition → Prop
  | [] => True
  | c :: cs => c.Readable ∧ Condition.AllReadable cs

def Condition.ClauseReadable : Option Condition → Prop
  | none => True
  | some c => c.Readable

def Select.Readable : Select → Prop
  | ⟨entity, fields, condition, sorts, skip, limit⟩ =>
    entity ≠ "" ∧ (∀ f ∈ fields, f ≠ "") ∧ Condition.ClauseReadable condition ∧
      (∀ s ∈ sorts, s.name ≠ "") ∧ skip.toNat < 0x8000000000000000 ∧
      limit.toNat < 0x8000000000000000

end

theorem Operand.allReadable_iff {vs : List Operand} :
    Operand.AllReadable vs ↔ ∀ v ∈ vs, v.Readable := by
  induction vs with
  | nil => simp [Operand.AllReadable]
  | cons v vs ih => simp [Operand.AllReadable, ih]

namespace Condition

theorem allReadable_iff {cs : List Condition} : AllReadable cs ↔ ∀ c ∈ cs, c.Readable := by
  induction cs with
  | nil => simp [AllReadable]
  | cons c cs ih => simp [AllReadable, ih]

theorem readable_ofParts {o : Connective} {cs : List Condition} :
    (o.ofParts cs).Readable ↔
      2 ≤ cs.length ∧ (∀ c ∈ cs, c.operator ≠ o.operator) ∧ ∀ c ∈ cs, c.Readable := by
  cases o <;> simp only [Connective.ofParts, Readable, allReadable_iff, Connective.operator]

theorem flat_readable : Flat Readable :=
  fun _ _ => readable_ofParts

end Condition

namespace Lifetime

theorem unit_dvd (t : Lifetime) : t.unit.inNanos ∣ t.inNanos := by
  unfold unit
  split
  · next h => exact h ▸ Nat.dvd_zero _
  · cases hfind : TimeUnit.all.find? fun u => t.inNanos % u.inNanos == 0 with
    | none => exact Nat.one_dvd _
    | some u => exact Nat.dvd_of_mod_eq_zero (by simpa using List.find?_some hfind)

/-- No larger unit than the one of a lifetime divides it. -/
theorem inNanos_le_unit {t : Lifetime} {u : TimeUnit} (ht : t.inNanos ≠ 0)
    (hu : u.inNanos ∣ t.inNanos) : u.inNanos ≤ t.unit.inNanos := by
  have hmem : u ∈ TimeUnit.all := by cases u <;> decide
  have hsorted : TimeUnit.all.Pairwise fun u v => v.inNanos ≤ u.inNanos := by decide
  have hmod : (t.inNanos % u.inNanos == 0) = true := by
    simpa using Nat.mod_eq_zero_of_dvd hu
  rw [unit, if_neg ht]
  cases hfind : TimeUnit.all.find? fun u => t.inNanos % u.inNanos == 0 with
  | none => exact absurd hmod (List.find?_eq_none.1 hfind u hmem)
  | some v =>
    obtain ⟨-, us, vs, hall, hus⟩ := List.find?_eq_some_iff_append.1 hfind
    rw [hall] at hmem hsorted
    rcases List.mem_append.1 hmem with h | h
    · exact absurd hmod (by simpa using hus u h)
    · rcases List.mem_cons.1 h with rfl | h
      · exact Nat.le_refl _
      · exact (List.pairwise_cons.1 (List.pairwise_append.1 hsorted).2.1).1 u h

/-- Whether the amount of a lifetime can be written as an integer. -/
def Readable (t : Lifetime) : Prop :=
  t.inNanos / t.unit.inNanos < 0x8000000000000000

/-- No amount of a unit that makes up a lifetime is smaller than the one in its own unit. -/
theorem div_unit_le {t : Lifetime} {n : Nat} {u : TimeUnit} (h : t.inNanos = n * u.inNanos) :
    t.inNanos / t.unit.inNanos ≤ n := by
  have hu : 0 < u.inNanos := by cases u <;> decide
  by_cases h0 : t.inNanos = 0
  · rw [h0, Nat.zero_div]
    exact Nat.zero_le n
  · have hle := inNanos_le_unit h0 (h ▸ Nat.dvd_mul_left u.inNanos n)
    calc
      t.inNanos / t.unit.inNanos ≤ t.inNanos / u.inNanos := Nat.div_le_div_left hle hu
      _ = n := by rw [h, Nat.mul_div_cancel n hu]

theorem readable_of_ofAmount? {n : Nat} {u : TimeUnit} {t : Lifetime}
    (hn : n < 0x8000000000000000) (h : ofAmount? n u = some t) : t.Readable :=
  Nat.lt_of_le_of_lt (div_unit_le (inNanos_ofNanos? h)) hn

end Lifetime

/-- Whether a condition is the assignment of a value that query text can give. -/
def Condition.IsAssignment (c : Condition) : Prop :=
  ∃ n v, c = .compare n .equal v ∧ n ≠ "" ∧ v.Readable

def Payload.Readable : Payload → Prop
  | assignments cs => cs ≠ [] ∧ ∀ c ∈ cs, c.IsAssignment
  | document v => ((∃ j, v = .document j) ∨ ∃ p, v = .parameter p) ∧ v.Readable

/-- Whether a statement is one that query text can give. -/
def Statement.Readable : Statement → Prop
  | select s => s.Readable
  | insert s => s.entity ≠ "" ∧ s.payload.Readable ∧ ∀ t ∈ s.ttl, t.Readable
  | update s => s.entity ≠ "" ∧ s.payload.Readable
  | delete s =>
    s.entity ≠ "" ∧ (∀ f ∈ s.fields, f ≠ "") ∧ Condition.ClauseReadable s.condition
  | get keys | del keys => keys ≠ [] ∧ ∀ k ∈ keys, k.Readable
  | put s => s.key.Readable ∧ s.value.Readable ∧ ∀ t ∈ s.ttl, t.Readable

namespace Grammar

def IsReadable : (n : Nonterminal) → n.Result → Prop
  | .number, v => v.IsScalar ∧ v.toJson.Readable
  | .count, n => n.toNat < 0x8000000000000000
  | .name, s => s ≠ ""
  | .member, m => m.2.Readable
  | .object, j | .array, j => j.IsContainer ∧ j.Readable
  | .document, j => j.Readable
  | .value, v => v.Readable
  | .choices, v => v.isChoices = true ∧ v.Readable
  | .predicate field, c => field ≠ "" → c.Readable
  | .unary, c | .condition, c => c.Readable
  | .links, cs => ∀ p ∈ cs, p.2.Readable
  | .filter, c => Condition.ClauseReadable c
  | .fields, fs => ∀ f ∈ fs, f ≠ ""
  | .sortKey, s => s.name ≠ ""
  | .ordering, sorts => ∀ s ∈ sorts, s.name ≠ ""
  | .paging, p => p.1.toNat < 0x8000000000000000 ∧ p.2.toNat < 0x8000000000000000
  | .select, s => s.Readable
  | .keys, ks => ks ≠ [] ∧ ∀ k ∈ ks, k.Readable
  | .assignment, c => c.IsAssignment
  | .payload, p => p.Readable
  | .lifetime, t => t.Readable
  | .body, s | .statement, s => s.Readable
  | .more n, as => ∀ a ∈ as, IsReadable n a

theorem allReadable_documents {js : List Json} (h : ∀ j ∈ js, j.Readable) :
    Json.AllReadable js := by
  induction js with
  | nil => trivial
  | cons j js ih =>
    exact ⟨h j List.mem_cons_self, ih fun k hk => h k (List.mem_cons_of_mem _ hk)⟩

/-- What can be derived from tokens that were read is readable. -/
theorem isReadable_of_produces {n : Nonterminal} {ts : List Token} {a : n.Result}
    (h : Produces n ts a) (hts : ∀ t ∈ ts, t.IsRead) : IsReadable n a := by
  induction h with
  | integer | minusInteger => exact ⟨trivial, _, rfl⟩
  | float | minusFloat => exact ⟨trivial, trivial⟩
  | @count n h =>
    show n.toUInt64.toNat < _
    have hlt := n.toInt_lt
    have hint := toInt_eq_toNat h
    omega
  | name => exact hts _ List.mem_cons_self
  | moreNil => nofun
  | moreCons _ _ ih₁ ih₂ =>
    simp only [List.forall_mem_cons, List.forall_mem_append] at hts
    exact List.forall_mem_cons.2 ⟨ih₁ hts.2.1, ih₂ hts.2.2⟩
  | member _ ih =>
    simp only [List.forall_mem_cons] at hts
    exact ih hts.2.2
  | emptyObject => exact ⟨trivial, .nil, trivial⟩
  | object _ _ ih₁ ih₂ =>
    simp only [List.forall_mem_cons, List.forall_mem_append] at hts
    refine ⟨trivial, Json.readable_ofMembers ?_⟩
    exact Json.membersReadable_iff.2 (List.forall_mem_cons.2 ⟨ih₁ hts.2.1, ih₂ hts.2.2.1⟩)
  | emptyArray => exact ⟨trivial, trivial⟩
  | array _ _ ih₁ ih₂ =>
    simp only [List.forall_mem_cons, List.forall_mem_append] at hts
    exact ⟨trivial, ih₁ hts.2.1, allReadable_documents (ih₂ hts.2.2.1)⟩
  | documentText | documentTrue | documentFalse | documentNull => trivial
  | documentNumber _ ih => exact (ih hts).2
  | documentObject _ ih | documentArray _ ih => exact (ih hts).2
  | valueText | valueTrue | valueFalse | valueNull => trivial
  | valueNumber _ ih => exact (ih hts).1
  | valueParameter => exact hts _ List.mem_cons_self
  | valueObject _ ih | valueArray _ ih => exact ih hts
  | valueList _ _ ih₁ ih₂ =>
    simp only [List.forall_mem_cons, List.forall_mem_append] at hts
    exact ⟨nofun, ih₁ hts.2.1, Operand.allReadable_iff.2 (ih₂ hts.2.2.1)⟩
  | valueSelect _ ih =>
    simp only [List.forall_mem_cons, List.forall_mem_append] at hts
    exact ih hts.2.1
  | choicesSingle _ h ih => exact ⟨h, ih hts⟩
  | choicesList _ _ ih₁ ih₂ =>
    simp only [List.forall_mem_cons, List.forall_mem_append] at hts
    exact ⟨rfl, nofun, ih₁ hts.2.1, Operand.allReadable_iff.2 (ih₂ hts.2.2.1)⟩
  | compare _ _ ih =>
    rw [List.forall_mem_cons] at hts
    exact fun hne => ⟨hne, ih hts.2⟩
  | between _ _ ih₁ ih₂ =>
    simp only [List.forall_mem_cons, List.forall_mem_append] at hts
    exact fun hne => ⟨hne, ih₁ hts.2.1, ih₂ hts.2.2.2⟩
  | within _ ih =>
    rw [List.forall_mem_cons] at hts
    exact fun hne => ⟨hne, ih hts.2⟩
  | not _ ih =>
    rw [List.forall_mem_cons] at hts
    exact ih hts.2
  | parens _ ih =>
    simp only [List.forall_mem_cons, List.forall_mem_append] at hts
    exact ih hts.2.1
  | test _ ih =>
    rw [List.forall_mem_cons] at hts
    exact ih hts.2 hts.1
  | linksNil => nofun
  | linksCons _ _ ih₁ ih₂ =>
    simp only [List.forall_mem_cons, List.forall_mem_append] at hts
    exact List.forall_mem_cons.2 ⟨ih₁ hts.2.1, ih₂ hts.2.2⟩
  | condition _ _ ih₁ ih₂ =>
    rw [List.forall_mem_append] at hts
    exact Condition.flat_readable.row (ih₁ hts.1) (ih₂ hts.2)
  | noFilter => trivial
  | filter _ ih =>
    rw [List.forall_mem_cons] at hts
    exact ih hts.2
  | noFields | star => nofun
  | fields _ ih =>
    rw [List.forall_mem_cons] at hts
    exact List.forall_mem_cons.2 ⟨hts.1, ih hts.2⟩
  | sortKey | ascending | descending => exact hts _ List.mem_cons_self
  | noOrdering => nofun
  | ordering _ _ ih₁ ih₂ =>
    simp only [List.forall_mem_cons, List.forall_mem_append] at hts
    exact List.forall_mem_cons.2 ⟨ih₁ hts.2.2.1, ih₂ hts.2.2.2⟩
  | noPaging => exact ⟨Nat.zero_lt_succ _, Nat.zero_lt_succ _⟩
  | skip _ ih =>
    rw [List.forall_mem_cons] at hts
    exact ⟨ih hts.2, Nat.zero_lt_succ _⟩
  | limit _ ih =>
    rw [List.forall_mem_cons] at hts
    exact ⟨Nat.zero_lt_succ _, ih hts.2⟩
  | skipLimit _ _ ih₁ ih₂ =>
    simp only [List.forall_mem_cons, List.forall_mem_append] at hts
    exact ⟨ih₁ hts.2.1, ih₂ hts.2.2.2⟩
  | limitSkip _ _ ih₁ ih₂ =>
    simp only [List.forall_mem_cons, List.forall_mem_append] at hts
    exact ⟨ih₂ hts.2.2.2, ih₁ hts.2.1⟩
  | select _ _ _ _ ih₁ ih₂ ih₃ ih₄ =>
    simp only [List.forall_mem_cons, List.forall_mem_append] at hts
    obtain ⟨-, hps, -, hentity, hcondition, hordering, hpaging⟩ := hts
    exact ⟨hentity, ih₁ hps, ih₂ hcondition, ih₃ hordering, ih₄ hpaging⟩
  | lastKey _ ih => exact ⟨nofun, List.forall_mem_singleton.2 (ih hts)⟩
  | key _ _ ih₁ ih₂ =>
    rw [List.forall_mem_append] at hts
    exact ⟨nofun, List.forall_mem_cons.2 ⟨ih₁ hts.1, (ih₂ hts.2).2⟩⟩
  | commaKey _ _ ih₁ ih₂ =>
    simp only [List.forall_mem_cons, List.forall_mem_append] at hts
    exact ⟨nofun, List.forall_mem_cons.2 ⟨ih₁ hts.1, (ih₂ hts.2.2).2⟩⟩
  | assignment _ ih =>
    simp only [List.forall_mem_cons] at hts
    exact ⟨_, _, rfl, hts.1, ih hts.2.2⟩
  | assignments _ _ ih₁ ih₂ =>
    simp only [List.forall_mem_cons, List.forall_mem_append] at hts
    exact ⟨nofun, List.forall_mem_cons.2 ⟨ih₁ hts.2.1, ih₂ hts.2.2.1⟩⟩
  | payloadObject _ ih | payloadArray _ ih => exact ⟨Or.inl ⟨_, rfl⟩, ih hts⟩
  | payloadParameter => exact ⟨Or.inr ⟨_, rfl⟩, hts _ List.mem_cons_self⟩
  | lifetime _ _ ht ih =>
    rw [List.forall_mem_append] at hts
    exact Lifetime.readable_of_ofAmount? (ih hts.1) ht
  | bodySelect _ ih => exact ih hts
  | insert _ ih =>
    simp only [List.forall_mem_cons, List.forall_mem_append] at hts
    exact ⟨hts.2.2.1, ih hts.2.2.2, nofun⟩
  | insertFor _ _ ih₁ ih₂ =>
    simp only [List.forall_mem_cons, List.forall_mem_append] at hts
    refine ⟨hts.2.2.1, ih₁ hts.2.2.2.1, ?_⟩
    rintro _ ⟨⟩
    exact ih₂ hts.2.2.2.2
  | update _ ih =>
    simp only [List.forall_mem_cons] at hts
    exact ⟨hts.2.1, ih hts.2.2⟩
  | delete _ _ ih₁ ih₂ =>
    simp only [List.forall_mem_cons, List.forall_mem_append] at hts
    exact ⟨hts.2.2.2.1, ih₁ hts.2.1, ih₂ hts.2.2.2.2⟩
  | get _ ih | del _ ih =>
    rw [List.forall_mem_cons] at hts
    exact ih hts.2
  | put _ _ ih₁ ih₂ =>
    simp only [List.forall_mem_cons, List.forall_mem_append] at hts
    exact ⟨ih₁ hts.2.2.1, ih₂ hts.2.2.2.2.1, nofun⟩
  | putFor _ _ _ ih₁ ih₂ ih₃ =>
    simp only [List.forall_mem_cons, List.forall_mem_append] at hts
    refine ⟨ih₁ hts.2.2.1, ih₂ hts.2.2.2.2.1, ?_⟩
    rintro _ ⟨⟩
    exact ih₃ hts.2.2.2.2.2.2.1
  | statement _ ih => exact ih hts
  | terminated _ ih =>
    rw [List.forall_mem_append] at hts
    exact ih hts.1

end Grammar

end StoreQuery

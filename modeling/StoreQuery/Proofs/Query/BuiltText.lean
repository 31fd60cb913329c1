import StoreQuery.Proofs.Query.ChainReading
import StoreQuery.Proofs.Query.Same

/-! # Texts of what chains build

A chain may build a statement that no text gives: its counts go up to the largest word, and an
operand may be a list without members or a number that no text has. The canonical text of what is
built is read as what is built exactly if a text can give every operand and every count of the
calls.
-/

namespace StoreQuery

open Grammar

namespace Condition

theorem leaves_join {c : Condition} {cs : List (Connective × Condition)} :
    (join c cs).leaves = c.leaves ++ cs.flatMap fun d => d.2.leaves :=
  collect_join (fun _ => leaves_ofParts (o := .and)) (fun _ => leaves_ofParts (o := .or)) c cs

end Condition

theorem Predicate.isParsed_of_readable {p : Predicate} {name : String} {c : Condition}
    (hc : p.condition name = .ok c) (hreadable : c.Readable) :
    ∀ v ∈ p.operands, v.IsParsed := by
  have hwithin : ∀ {v : Operand}, Condition.withinOf name v = .ok c → v.Readable := by
    intro v hc
    rw [Condition.withinOf] at hc
    split at hc
    · cases hc
      exact hreadable.2.2
    · cases hc
  intro v hv
  apply Operand.isParsed_iff.2
  cases p with
  | compare o w =>
    cases hc
    rw [List.mem_singleton.1 hv]
    exact hreadable.2
  | between low high =>
    cases hc
    rcases List.mem_cons.1 hv with rfl | hv
    · exact hreadable.2.1
    · rw [List.mem_singleton.1 hv]
      exact hreadable.2.2
  | withinList values =>
    exact Operand.allReadable_iff.1 (hwithin hc).2 v hv
  | within values =>
    rw [List.mem_singleton.1 hv]
    exact hwithin hc

theorem Test.leaves_condition {t : Test} {c : Condition} (h : t.condition = .ok c) :
    ∃ d, t.predicate.condition t.name = .ok d ∧ c.leaves = [d] := by
  obtain ⟨_, -, h⟩ := bind_eq_ok.1 h
  obtain ⟨d, hd, h⟩ := bind_eq_ok.1 h
  have hleaf : d.isLogical = false := by
    have hwithin : ∀ {v : Operand}, Condition.withinOf t.name v = .ok d →
        d.isLogical = false := by
      intro v hd
      rw [Condition.withinOf] at hd
      split at hd <;> cases hd
      rfl
    cases hp : t.predicate <;> rw [hp] at hd
    case compare | between =>
      cases hd
      rfl
    all_goals exact hwithin hd
  refine ⟨d, hd, ?_⟩
  split at h
  · cases h
  · cases hnegated : t.negated <;> rw [hnegated] at h <;> cases h
    · exact Condition.leaves_leaf hleaf
    · exact Condition.leaves_leaf hleaf

theorem Filter.leaves_condition? {f : Filter} {c : Option Condition}
    (h : condition? (some f) = .ok c) :
    ∃ d, c = some d ∧ ∀ t ∈ f.tests, ∃ e, t.2.condition = .ok e ∧ e.leaves ⊆ d.leaves := by
  obtain ⟨cs, hcs, hgroups⟩ := bind_eq_ok.1 h
  have htests : ∀ t ∈ f.tests, ∃ e ∈ cs, t.2.condition = .ok e.2 := by
    intro t ht
    obtain ⟨e, he, hpair⟩ := exists_mem_of_mapM hcs ht
    obtain ⟨d, hd, ⟨⟩⟩ := bind_eq_ok.1 hpair
    exact ⟨_, he, hd⟩
  rw [tests, List.mapM_cons] at hcs
  obtain ⟨_, hpair, hcs⟩ := bind_eq_ok.1 hcs
  obtain ⟨others, hothers, hcons⟩ := bind_eq_ok.1 hcs
  obtain ⟨first, hfirst, hpair⟩ := bind_eq_ok.1 hpair
  cases hpair
  cases hcons
  refine ⟨.join first others,
    (Except.ok.inj hgroups).symm.trans (Condition.ofGroups_eq_join first others), ?_⟩
  intro t ht
  obtain ⟨e, he, hcondition⟩ := htests t ht
  refine ⟨e.2, hcondition, ?_⟩
  have hflat : (Condition.join first others).leaves =
      List.flatMap (fun d => d.2.leaves) ((Connective.and, first) :: others) :=
    Condition.leaves_join
  rw [hflat]
  intro l hl
  exact List.mem_flatMap_of_mem he hl

theorem Filter.isParsed_of_readable {f : Filter} {c : Option Condition}
    (h : condition? (some f) = .ok c) (hc : Condition.ClauseReadable c) :
    ∀ t ∈ f.tests, ∀ v ∈ t.2.predicate.operands, v.IsParsed := by
  obtain ⟨d, rfl, htests⟩ := leaves_condition? h
  intro t ht
  obtain ⟨e, he, hleaves⟩ := htests t ht
  obtain ⟨l, hl, heq⟩ := t.2.leaves_condition he
  have hmem : l ∈ d.leaves := hleaves (heq ▸ List.mem_singleton_self l)
  exact Predicate.isParsed_of_readable hl (Condition.Readable.leaf hc hmem)

namespace Call

/-- Whether a text can give the operands and the count of a call. A text gives no list without
members, no number that is not finite, no integer above the signed words, and no object with keys
out of order. -/
def Readable : Call → Prop
  | predicate p => ∀ v ∈ p.operands, v.Readable
  | skip n | limit n => n.toNat < 0x8000000000000000
  | _ => True

theorem isWritable_iff {x : Call} : x.IsWritable ↔ x.Readable := by
  cases x with
  | predicate p => exact forall₂_congr fun _ _ => Operand.isParsed_iff
  | _ => exact Iff.rfl

end Call

namespace Chain

variable {star : Bool} {place place' : Place} {c c' : Chain} {s : String} {x : Call}

theorem IsWritable.of_addTest {o : Connective} {t : Test} (h : (c.addTest o t).IsWritable) :
    c.IsWritable ∧ ∀ v ∈ t.predicate.operands, v.IsParsed := by
  obtain ⟨fields, entity, filter, kind⟩ := c
  cases filter with
  | none => exact ⟨⟨nofun, h.counts⟩, h.tests _ rfl (.and, t) List.mem_cons_self⟩
  | some f =>
    have htests := h.tests _ rfl
    rw [Filter.tests, List.forall_mem_cons, List.forall_mem_append] at htests
    constructor
    · constructor
      · rintro _ ⟨⟩
        rw [Filter.tests, List.forall_mem_cons]
        exact ⟨htests.1, htests.2.1⟩
      · exact h.counts
    · exact htests.2.2 (o, t) List.mem_cons_self

/-- A chain that can be written was so before a call, and the call can be written. -/
theorem IsWritable.of_step (h : c'.IsWritable) (hc : c.IsText star s place)
    (hstep : Step place c x place' c') : c.IsWritable ∧ x.IsWritable := by
  have hzero : (0 : UInt64).toNat < 0x8000000000000000 := Nat.zero_lt_succ _
  cases hstep with
  | predicate => exact h.of_addTest
  | entity => exact ⟨⟨h.tests, h.counts⟩, trivial⟩
  | direction =>
    refine ⟨⟨h.tests, ?_⟩, trivial⟩
    rintro _ _ _ ⟨⟩
    exact h.counts _ _ _ rfl
  | skip hplace | limit hplace =>
    obtain ⟨rfl, rfl, -, -⟩ := hc.of_isOrderable hplace rfl
    obtain ⟨hskip, hlimit⟩ := h.counts _ _ _ rfl
    refine ⟨⟨h.tests, ?_⟩, by assumption⟩
    rintro _ _ _ ⟨⟩
    exact ⟨hzero, hzero⟩
  | limitSkip =>
    obtain ⟨_, _, hkind, -⟩ := hc
    cases hkind
    obtain ⟨hskip, hlimit⟩ := h.counts _ _ _ rfl
    refine ⟨⟨h.tests, ?_⟩, hskip⟩
    rintro _ _ _ ⟨⟩
    exact ⟨hzero, hlimit⟩
  | skipLimit =>
    obtain ⟨_, _, hkind, -⟩ := hc
    cases hkind
    obtain ⟨hskip, hlimit⟩ := h.counts _ _ _ rfl
    refine ⟨⟨h.tests, ?_⟩, hlimit⟩
    rintro _ _ _ ⟨⟩
    exact ⟨hskip, hzero⟩
  | _ => exact ⟨h, trivial⟩

theorem IsWritable.of_calls {xs : List Call} (h : c'.IsWritable) (hc : c.IsText star s place)
    (hcalls : callAll place c xs = some (place', c')) : ∀ x ∈ xs, x.IsWritable := by
  have hboth : c.IsWritable ∧ ∀ x ∈ xs, x.IsWritable := by
    induction xs generalizing place c s with
    | nil =>
      cases hcalls
      exact ⟨h, nofun⟩
    | cons x xs ih =>
      obtain ⟨next, d, hcall, hrest⟩ := exists_of_callAll_cons hcalls
      have hstep := step_of_call hcall
      obtain ⟨hd, hxs⟩ := ih (hc.step hstep) hrest
      obtain ⟨hc, hx⟩ := hd.of_step hc hstep
      exact ⟨hc, List.forall_mem_cons.2 ⟨hx, hxs⟩⟩
  exact hboth.2

theorem IsWritable.of_build {st : Statement} (hbuild : c.build = .ok st) (h : st.Readable) :
    c.IsWritable := by
  obtain ⟨-, -, condition, hcondition, hkind⟩ := build_eq_ok hbuild
  have hclause : Condition.ClauseReadable condition := by
    rcases hkind with ⟨_, _, _, -, -, rfl⟩ | ⟨-, rfl⟩
    · exact h.2.2.1
    · exact h.2.2
  constructor
  · intro f hf
    rw [Option.mem_def.1 hf] at hcondition
    exact Filter.isParsed_of_readable hcondition hclause
  · intro sorts skip limit hselect
    rcases hkind with ⟨_, _, _, hkind, -, rfl⟩ | ⟨hkind, -⟩
    · cases hselect.symm.trans hkind
      exact h.2.2.2.2
    · cases hselect.symm.trans hkind

section Built

variable {kind : ChainKind} {fields : List String} {calls : List Call} {st : Statement}

/-- The statements that text can give are built by the calls that text can give. -/
theorem readable_iff_calls (hkind : kind = .select [] 0 0 ∨ kind = .delete)
    (hc : ofCalls (ofFields kind fields) calls = some c) (hbuild : c.build = .ok st) :
    st.Readable ↔ ∀ x ∈ calls, x.Readable := by
  constructor
  · intro h x hx
    obtain ⟨place, hall, -⟩ := exists_of_ofCalls hc
    have hstart : (ofFields kind fields).IsText true ((ofFields kind fields).heading true)
        .start := ⟨rfl, hkind, rfl⟩
    exact Call.isWritable_iff.1 ((IsWritable.of_build hbuild h).of_calls hstart hall x hx)
  · intro h
    have hcalls : ∀ x ∈ calls, x.IsWritable := fun x hx => Call.isWritable_iff.2 (h x hx)
    exact readable_of_parseStatement (parse_ofCalls hkind hcalls hc hbuild true)

/-- What is built is readable if its text is read as something equal. -/
theorem readable_of_parse_built (hbuild : c.build = .ok st) {t : Statement}
    (ht : (parseStatement st.render).result = .ok t) (hsame : t.same st = true) :
    st.Readable := by
  have hreadable := readable_of_parseStatement ht
  obtain ⟨-, -, condition, -, ⟨_, _, _, -, -, rfl⟩ | ⟨-, rfl⟩⟩ := build_eq_ok hbuild
  · cases t with
    | select s => exact Select.Readable.of_same hreadable hsame
    | _ => cases hsame
  · cases t with
    | delete s =>
      obtain ⟨entity, fields, condition⟩ := s
      simp only [Statement.same, Bool.and_eq_true, beq_iff_eq] at hsame
      obtain ⟨⟨rfl, rfl⟩, hcondition⟩ := hsame
      exact ⟨hreadable.1, hreadable.2.1, Condition.ClauseReadable.of_same hreadable.2.2 hcondition⟩
    | _ => cases hsame

/-- The canonical text of what calls build is read as what they build exactly if a text can give
every operand and every count of the calls. Otherwise it is not read as anything equal. -/
theorem parse_render_built
    (hc : select fields calls = some c ∨ delete fields calls = some c)
    (hbuild : c.build = .ok st) :
    ((parseStatement st.render).result = .ok st ↔ ∀ x ∈ calls, x.Readable) ∧
      ∀ t, (parseStatement st.render).result = .ok t → t.same st = true → t = st := by
  have hreadable : st.Readable ↔ ∀ x ∈ calls, x.Readable := by
    rcases hc with hc | hc
    · exact readable_iff_calls (.inl rfl) hc hbuild
    · exact readable_iff_calls (.inr rfl) hc hbuild
  constructor
  · rw [← hreadable]
    exact ⟨readable_of_parseStatement, parseStatement_of_readable⟩
  · intro t ht hsame
    have hst := parseStatement_of_readable (readable_of_parse_built hbuild ht hsame)
    exact Except.ok.inj (ht.symm.trans hst)

theorem parse_render_built_choices :
    let values := [Operand.parameter "p", .document (.object [("k", .null)])]
    let calls := [Call.entity "T", .filter "x", .not, .predicate (.withinList values),
      .skip 0x7fffffffffffffff]
    ∃ c st, select ["a"] calls = some c ∧ c.build = .ok st ∧
      st.render =
        "select a from T where not x in (@p, \x7b\"k\":null\x7d) skip 9223372036854775807" ∧
      (parseStatement st.render).result = .ok st ∧
      ∀ t, (parseStatement st.render).result = .ok t → t.same st = true → t = st := by
  intro values calls
  have hc : select ["a"] calls = some ⟨["a"], "T",
      some ⟨⟨"x", true, .withinList values⟩, []⟩, .select [] 0x7fffffffffffffff 0⟩ := rfl
  have hbuild : (⟨["a"], "T", some ⟨⟨"x", true, .withinList values⟩, []⟩,
      .select [] 0x7fffffffffffffff 0⟩ : Chain).build = .ok (.select ⟨"T", ["a"],
        some (.not (.within "x" (.list values))), [], 0x7fffffffffffffff, 0⟩) := rfl
  have hcalls : ∀ x ∈ calls, x.Readable := by
    have hparameter : (Operand.parameter "p").Readable :=
      show Name.isDotted true _ = true by decide
    have hdocument : (Operand.document (.object [("k", .null)])).Readable :=
      ⟨trivial, List.pairwise_singleton .., trivial, trivial⟩
    have hskip : (0x7fffffffffffffff : UInt64).toNat < 0x8000000000000000 := by decide
    simp only [calls, values, List.forall_mem_cons, Call.Readable, Predicate.operands]
    exact ⟨trivial, trivial, trivial, ⟨hparameter, hdocument, List.forall_mem_nil _⟩, hskip,
      List.forall_mem_nil _⟩
  obtain ⟨hread, hsame⟩ := parse_render_built (.inl hc) hbuild
  exact ⟨_, _, hc, hbuild, by decide +kernel, hread.2 hcalls, hsame⟩

/-- Not all that is built is read from its text: no text has a limit above the signed words. -/
theorem not_parse_render_every_built :
    ¬∀ fields calls c st, select fields calls = some c ∨ delete fields calls = some c →
      c.build = .ok st →
      ∃ t, (parseStatement st.render).result = .ok t ∧ t.same st = true := by
  intro h
  have hc : select [] [.entity "T", .limit 0x8000000000000000] =
      some ⟨[], "T", none, .select [] 0 0x8000000000000000⟩ := rfl
  have hbuild : (⟨[], "T", none, .select [] 0 0x8000000000000000⟩ : Chain).build =
      .ok (.select ⟨"T", [], none, [], 0, 0x8000000000000000⟩) := rfl
  obtain ⟨t, ht, hsame⟩ := h _ _ _ _ (.inl hc) hbuild
  have hreadable := readable_of_parse_built hbuild ht hsame
  have hcalls := (readable_iff_calls (.inl rfl) hc hbuild).1 hreadable
  have hlimit : (0x8000000000000000 : UInt64).toNat < 0x8000000000000000 :=
    hcalls _ (List.mem_cons_of_mem _ List.mem_cons_self)
  exact absurd hlimit (by decide)

end Built

end Chain

end StoreQuery

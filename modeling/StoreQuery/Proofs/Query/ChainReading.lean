import StoreQuery.Proofs.Query.ChainText

/-! # Chains and text agree

The text of a chain spells the statement that the chain builds. Its tests are a flat row of
conditions, which is joined in the text as it is in the chain.
-/

namespace StoreQuery

open Grammar

section Checks

variable {α : Type}

theorem checkName_eq_ok {r : NameRole} {name : String} :
    checkName r name = .ok () ↔ name ≠ "" := by
  by_cases h : name = "" <;> simp [checkName, h]

theorem forM_checkName_eq_ok {role : NameRole} {name : α → String} {as : List α} :
    (as.forM fun a => checkName role (name a)) = .ok () ↔ ∀ a ∈ as, name a ≠ "" := by
  induction as with
  | nil => exact ⟨nofun, fun _ => rfl⟩
  | cons a as ih =>
    rw [List.forM_eq_forM] at ih ⊢
    rw [List.forM_cons, bind_eq_ok, List.forall_mem_cons, ← ih, ← checkName_eq_ok (r := role)]
    exact ⟨fun ⟨_, ha, has⟩ => ⟨ha, has⟩, fun ⟨ha, has⟩ => ⟨(), ha, has⟩⟩

end Checks

namespace Operand

def IsParsed (v : Operand) : Prop :=
  ∃ text, (parseStatement text).result = .ok (.get [v])

theorem isParsed_iff {v : Operand} : v.IsParsed ↔ v.Readable := by
  rw [IsParsed, ← readable_iff]
  exact ⟨fun ⟨_, h⟩ => h v List.mem_cons_self, fun h =>
    ⟨nofun, List.forall_mem_singleton.2 h⟩⟩

end Operand

theorem Predicate.readable_condition {p : Predicate} {name : String} {c : Condition}
    (hp : ∀ v ∈ p.operands, v.IsParsed) (hname : name ≠ "") (hc : p.condition name = .ok c) :
    c.Readable ∧ c.isLogical = false ∧ c.render = p.render name := by
  have hwithin : ∀ {v : Operand}, Condition.withinOf name v = .ok c → v.Readable →
      c = .within name v ∧ c.Readable := by
    intro v hc hv
    rw [Condition.withinOf] at hc
    split at hc
    · next hchoices =>
      cases hc
      exact ⟨rfl, hname, hchoices, hv⟩
    · cases hc
  cases p with
  | compare o v =>
    cases hc
    exact ⟨⟨hname, Operand.isParsed_iff.1 (hp v List.mem_cons_self)⟩, rfl, rfl⟩
  | between low high =>
    cases hc
    have hlow := Operand.isParsed_iff.1 (hp low List.mem_cons_self)
    have hhigh := Operand.isParsed_iff.1 (hp high (List.mem_cons_of_mem _ List.mem_cons_self))
    exact ⟨⟨hname, hlow, hhigh⟩, rfl, rfl⟩
  | withinList values =>
    have hvalues := Operand.allReadable_iff.2 fun v hv => Operand.isParsed_iff.1 (hp v hv)
    have hne : values ≠ [] := by
      rintro rfl
      cases hc
    obtain ⟨rfl, hreadable⟩ := hwithin hc ⟨hne, hvalues⟩
    exact ⟨hreadable, rfl, rfl⟩
  | within values =>
    obtain ⟨rfl, hreadable⟩ := hwithin hc (Operand.isParsed_iff.1 (hp values List.mem_cons_self))
    exact ⟨hreadable, rfl, rfl⟩

theorem Condition.Readable.spells_unary {c : Condition} (h : c.Readable)
    (hleaf : c.isLogical = false) : Spells .unary c.render.toList c := by
  obtain ⟨ts, hts, hrenders⟩ := c.renders fun _ hl => h.leaf hl
  have hneeds : Condition.Site.negated.needs c = false := by
    cases c <;> first | rfl | cases hleaf
  exact ⟨ts, hts, (hrenders .negated hneeds).means c h.rebuild⟩

theorem Test.spells {t : Test} {c : Condition} (ht : ∀ v ∈ t.predicate.operands, v.IsParsed)
    (hc : t.condition = .ok c) : Spells .unary t.render.toList c := by
  obtain ⟨_, hname, hc⟩ := bind_eq_ok.1 hc
  obtain ⟨d, hd, hc⟩ := bind_eq_ok.1 hc
  obtain ⟨hreadable, hleaf, hrender⟩ :=
    Predicate.readable_condition ht (checkName_eq_ok.1 hname) hd
  obtain ⟨ts, hts, hd⟩ := hreadable.spells_unary hleaf
  rw [hrender] at hts
  split at hc
  · cases hc
  · cases hnegated : t.negated with
    | true =>
      rw [hnegated] at hc
      cases hc
      refine ⟨_, ?_, .not hd⟩
      simp only [render, hnegated, if_true, String.toList_append]
      exact (Closes.keyword .not).append_writes hts
    | false =>
      rw [hnegated] at hc
      cases hc
      refine ⟨ts, ?_, hd⟩
      simpa only [render, hnegated, Bool.false_eq_true, if_false, String.empty_append] using hts

namespace Condition

variable {f : Condition → Condition → Condition} {c d : Condition} {cs : List Condition}
  {groups : List (List Condition)}

theorem reduce_concat : reduce f (cs ++ [c]) = some (((reduce f cs).map (f · c)).getD c) := by
  cases cs with
  | nil => rfl
  | cons d cs => simp [reduce]

theorem ofGroups_concat :
    ofGroups (groups ++ [c :: cs]) =
      some (((ofGroups groups).map (·.or (cs.foldl and c))).getD (cs.foldl and c)) := by
  have hgroups : (groups ++ [c :: cs]).filterMap (reduce and) =
      groups.filterMap (reduce and) ++ [cs.foldl and c] := by
    rw [List.filterMap_append]
    rfl
  rw [ofGroups, hgroups, reduce_concat]
  rfl

theorem addToGroups_and :
    addToGroups (groups ++ [c :: cs]) (.and, d) = groups ++ [c :: (cs ++ [d])] := by
  simp [addToGroups]

/-- The last group is the conjunction that is open, and the groups before it are the disjunction
before it. -/
theorem ofGroups_foldl (ds : List (Connective × Condition)) :
    ofGroups (ds.foldl addToGroups (groups ++ [c :: cs])) =
      some (joinAfter (ofGroups groups) (cs.foldl and c) ds) := by
  induction ds generalizing groups c cs with
  | nil => exact ofGroups_concat
  | cons d ds ih =>
    obtain ⟨_ | _, d⟩ := d
    · rw [List.foldl_cons, addToGroups_and, ih, List.foldl_append]
      rfl
    · rw [List.foldl_cons, addToGroups, ih, ofGroups_concat]
      rfl

/-- The groups of a row of conditions are the disjunction of its conjunctions. -/
theorem ofGroups_eq_join (c : Condition) (ds : List (Connective × Condition)) :
    ofGroups (((.and, c) :: ds).foldl addToGroups []) = some (join c ds) :=
  @ofGroups_foldl c [] [] ds

end Condition

namespace Filter

theorem stops_renderOthers (ts : List (Connective × Test)) :
    Token.stops (renderOthers ts).toList = true := by
  cases ts with
  | nil => rfl
  | cons t ts =>
    simp only [renderOthers, String.toList_append]
    rfl

theorem stops_renderClause (f : Option Filter) : Token.stops (renderClause f).toList = true := by
  cases f with
  | none => rfl
  | some f =>
    simp only [renderClause, String.toList_append]
    rfl

theorem spells_others {ts : List (Connective × Test)} {cs : List (Connective × Condition)}
    (hts : ∀ t ∈ ts, ∀ v ∈ t.2.predicate.operands, v.IsParsed)
    (hcs : (ts.mapM fun (o, t) => do
      let c ← t.condition
      return (o, c)) = Except.ok cs) : Spells .links (renderOthers ts).toList cs := by
  induction ts generalizing cs with
  | nil =>
    cases hcs
    exact ⟨[], .nil, .linksNil⟩
  | cons t ts ih =>
    obtain ⟨o, t⟩ := t
    rw [List.forall_mem_cons] at hts
    rw [List.mapM_cons] at hcs
    obtain ⟨_, hpair, hcs⟩ := bind_eq_ok.1 hcs
    obtain ⟨ds, hds, hcons⟩ := bind_eq_ok.1 hcs
    obtain ⟨c, htest, hpair⟩ := bind_eq_ok.1 hpair
    cases hpair
    cases hcons
    obtain ⟨us, hus, hc⟩ := t.spells hts.1 htest
    obtain ⟨vs, hvs, hds⟩ := ih hts.2 hds
    have hkeyword : Closes (" ".toList ++ (o.keyword.word.toList ++ " ".toList)) [o.token] := by
      cases o with
      | and => exact Closes.spaced .and
      | or => exact Closes.spaced .or
    have hwrites := hkeyword.append_writes (hus.append hvs (stops_renderOthers ts))
    refine ⟨_, ?_, .linksCons hc hds⟩
    simp only [renderOthers, String.toList_append, List.append_assoc] at hwrites ⊢
    exact hwrites

theorem spells_clause {f : Option Filter} {c : Option Condition}
    (hf : ∀ g ∈ f, ∀ t ∈ g.tests, ∀ v ∈ t.2.predicate.operands, v.IsParsed)
    (hc : condition? f = .ok c) : Spells .filter (renderClause f).toList c := by
  cases f with
  | none =>
    cases hc
    exact ⟨[], .nil, .noFilter⟩
  | some f =>
    obtain ⟨cs, hcs, hgroups⟩ := bind_eq_ok.1 hc
    rw [tests, List.mapM_cons] at hcs
    obtain ⟨_, hpair, hcs⟩ := bind_eq_ok.1 hcs
    obtain ⟨others, hothers, hcons⟩ := bind_eq_ok.1 hcs
    obtain ⟨first, hfirst, hpair⟩ := bind_eq_ok.1 hpair
    cases hpair
    cases hcons
    obtain rfl : some (.join first others) = c :=
      (Condition.ofGroups_eq_join first others).symm.trans (Except.ok.inj hgroups)
    have htests := List.forall_mem_cons.1 (hf f rfl)
    obtain ⟨ts, hts, hfirst⟩ := f.first.spells htests.1 hfirst
    obtain ⟨us, hus, hothers⟩ := spells_others htests.2 hothers
    refine ⟨_, ?_, .filter (.condition hfirst hothers)⟩
    simp only [renderClause, String.toList_append, List.append_assoc]
    exact (Closes.spaced .whereWord).append_writes
      (hts.append hus (stops_renderOthers f.others))

end Filter

namespace Call

/-- Whether a text can have the operands and the count of a call. -/
def IsWritable : Call → Prop
  | predicate p => ∀ v ∈ p.operands, v.IsParsed
  | skip n | limit n => n.toNat < 0x8000000000000000
  | _ => True

end Call

namespace Chain

structure IsWritable (c : Chain) : Prop where
  tests : ∀ f ∈ c.filter, ∀ t ∈ f.tests, ∀ v ∈ t.2.predicate.operands, v.IsParsed
  counts : ∀ sorts skip limit, c.kind = .select sorts skip limit →
    skip.toNat < 0x8000000000000000 ∧ limit.toNat < 0x8000000000000000

variable {star : Bool} {place place' : Place} {c c' : Chain} {s : String} {x : Call}

theorem IsWritable.addTest (h : c.IsWritable) {o : Connective} {t : Test}
    (ht : ∀ v ∈ t.predicate.operands, v.IsParsed) : (c.addTest o t).IsWritable := by
  obtain ⟨fields, entity, filter, kind⟩ := c
  cases filter with
  | none =>
    refine ⟨?_, h.counts⟩
    rintro _ ⟨⟩
    exact List.forall_mem_singleton.2 ht
  | some f =>
    refine ⟨?_, h.counts⟩
    rintro _ ⟨⟩
    have hf := h.tests f rfl
    rw [Filter.tests, List.forall_mem_cons] at hf ⊢
    rw [List.forall_mem_append]
    exact ⟨hf.1, hf.2, List.forall_mem_singleton.2 ht⟩

theorem IsWritable.step (h : c.IsWritable) (hx : x.IsWritable)
    (hstep : Step place c x place' c') : c'.IsWritable := by
  cases hstep with
  | predicate => exact h.addTest hx
  | direction =>
    refine ⟨h.tests, ?_⟩
    rintro _ _ _ ⟨⟩
    exact h.counts _ _ _ rfl
  | skip | limitSkip =>
    refine ⟨h.tests, ?_⟩
    rintro _ _ _ ⟨⟩
    exact ⟨hx, (h.counts _ _ _ rfl).2⟩
  | limit | skipLimit =>
    refine ⟨h.tests, ?_⟩
    rintro _ _ _ ⟨⟩
    exact ⟨(h.counts _ _ _ rfl).1, hx⟩
  | entity => exact ⟨h.tests, h.counts⟩
  | _ => exact h

theorem IsWritable.calls {xs : List Call} (h : c.IsWritable) (hxs : ∀ x ∈ xs, x.IsWritable)
    (hcalls : callAll place c xs = some (place', c')) : c'.IsWritable := by
  induction xs generalizing place c with
  | nil =>
    cases hcalls
    exact h
  | cons x xs ih =>
    rw [List.forall_mem_cons] at hxs
    obtain ⟨next, d, hcall, hrest⟩ := exists_of_callAll_cons hcalls
    exact ih (h.step hxs.1 (step_of_call hcall)) hxs.2 hrest

/-- What a chain that is built consists of. -/
theorem build_eq_ok {st : Statement} (h : c.build = .ok st) :
    (∀ f ∈ c.fields, f ≠ "") ∧ c.entity ≠ "" ∧ ∃ condition,
      Filter.condition? c.filter = .ok condition ∧
        ((∃ sorts skip limit, c.kind = .select sorts skip limit ∧ (∀ k ∈ sorts, k.name ≠ "") ∧
          st = .select ⟨c.entity, c.fields, condition, sorts, skip, limit⟩) ∨
        c.kind = .delete ∧ st = .delete ⟨c.entity, c.fields, condition⟩) := by
  obtain ⟨_, hfields, hrest⟩ := bind_eq_ok.1 h
  obtain ⟨_, hentity, hrest⟩ := bind_eq_ok.1 hrest
  obtain ⟨condition, hcondition, hrest⟩ := bind_eq_ok.1 hrest
  refine ⟨forM_checkName_eq_ok.1 hfields, checkName_eq_ok.1 hentity, condition, hcondition, ?_⟩
  cases hkind : c.kind with
  | select sorts skip limit =>
    rw [hkind] at hrest
    obtain ⟨_, hsorts, hst⟩ := bind_eq_ok.1 hrest
    exact .inl ⟨sorts, skip, limit, rfl, forM_checkName_eq_ok.1 hsorts, (Except.ok.inj hst).symm⟩
  | delete =>
    rw [hkind] at hrest
    exact .inr ⟨rfl, (Except.ok.inj hrest).symm⟩

theorem IsText.exists_paging (h : c.IsText star s place) (hplace : place.isFinal = true)
    {sorts : List SortKey} {skip limit : UInt64} (hkind : c.kind = .select sorts skip limit)
    (hskip : skip.toNat < 0x8000000000000000) (hlimit : limit.toNat < 0x8000000000000000) :
    ∃ g, s = c.base star ++ SortKey.renderClause sorts ++ g ∧
      Spells .paging g.toList (skip, limit) ∧ Token.stops g.toList = true := by
  obtain ⟨ts, hts, hskip⟩ := Spells.clause .skip hskip
  obtain ⟨us, hus, hlimit⟩ := Spells.clause .limit hlimit
  cases place with
  | named | tested | sorted =>
    obtain ⟨rfl, rfl, rfl, -⟩ := h.of_isOrderable rfl hkind
    exact ⟨"", (String.append_empty ..).symm, ⟨[], .nil, .noPaging⟩, rfl⟩
  | skipped =>
    obtain ⟨sorts', n, hn, rfl⟩ := h
    cases hkind.symm.trans hn
    refine ⟨" skip " ++ toString skip.toNat, String.append_assoc .., ?_, ?_⟩
    · rw [String.toList_append]
      exact ⟨_, hts, .skip hskip⟩
    · rw [String.toList_append]
      rfl
  | limited =>
    obtain ⟨sorts', n, hn, rfl⟩ := h
    cases hkind.symm.trans hn
    refine ⟨" limit " ++ toString limit.toNat, String.append_assoc .., ?_, ?_⟩
    · rw [String.toList_append]
      exact ⟨_, hus, .limit hlimit⟩
    · rw [String.toList_append]
      rfl
  | paged =>
    obtain ⟨sorts', m, n, hn, rfl | rfl⟩ := h
    · cases hkind.symm.trans hn
      refine ⟨" skip " ++ toString skip.toNat ++ (" limit " ++ toString limit.toNat),
        by simp only [String.append_assoc], ?_, ?_⟩
      · simp only [String.toList_append]
        exact ⟨_, hts.append hus rfl, .skipLimit hskip hlimit⟩
      · simp only [String.toList_append]
        rfl
    · cases hkind.symm.trans hn
      refine ⟨" limit " ++ toString limit.toNat ++ (" skip " ++ toString skip.toNat),
        by simp only [String.append_assoc], ?_, ?_⟩
      · simp only [String.toList_append]
        exact ⟨_, hus.append hts rfl, .limitSkip hlimit hskip⟩
      · simp only [String.toList_append]
        rfl
  | _ => cases hplace

theorem IsText.eq_base (h : c.IsText star s place) (hplace : place.isFinal = true)
    (hkind : c.kind = .delete) : s = c.base star := by
  cases place with
  | named | tested => exact h.2.2
  | sorted =>
    obtain ⟨_, -, h, -⟩ := h
    cases hkind.symm.trans h
  | skipped | limited =>
    obtain ⟨_, _, h, -⟩ := h
    cases hkind.symm.trans h
  | paged =>
    obtain ⟨_, _, _, h, -⟩ := h
    cases hkind.symm.trans h
  | _ => cases hplace

theorem exists_closes_heading (star : Bool) (hkind : c.kind = .delete)
    (hfields : ∀ f ∈ c.fields, f ≠ "") :
    ∃ ps, Produces .fields ps c.fields ∧
      Closes ((c.heading star).toList ++ "from ".toList)
        (.keyword .delete :: (ps ++ [.keyword .fromWord])) := by
  obtain ⟨fields, entity, filter, kind⟩ := c
  obtain rfl : kind = .delete := hkind
  simp only [heading, String.toList_append, List.append_assoc]
  cases star with
  | true =>
    cases fields with
    | nil =>
      have hstar : Closes "* ".toList [.symbol .star] :=
        (Closes.mark (s := .star) rfl).append .blank
      exact ⟨[.symbol .star], .star,
        (Closes.keyword .delete).append (hstar.append (.keyword .fromWord))⟩
    | cons => exact exists_closes_delete hfields
  | false => exact exists_closes_delete hfields

/-- The text of a chain that may end spells what it builds. -/
theorem IsText.spells (h : c.IsText star s place) (hplace : place.isFinal = true)
    (hc : c.IsWritable) {st : Statement} (hbuild : c.build = .ok st) :
    Spells .body s.toList st := by
  obtain ⟨hfields, hentity, condition, hcondition, hkind⟩ := build_eq_ok hbuild
  have hfilter := Filter.spells_clause hc.tests hcondition
  rcases hkind with ⟨sorts, skip, limit, hkind, hsorts, rfl⟩ | ⟨hkind, rfl⟩
  · obtain ⟨hskip, hlimit⟩ := hc.counts _ _ _ hkind
    obtain ⟨g, rfl, hpaging, hg⟩ := h.exists_paging hplace hkind hskip hlimit
    obtain ⟨ts, hts, hselect⟩ := Spells.select hentity (Spells.projection hfields) hfilter
      (Spells.ordering hsorts) hpaging (Filter.stops_renderClause c.filter)
      (stops_renderSorts sorts) hg
    refine ⟨ts, ?_, .bodySelect hselect⟩
    simp only [base, heading, hkind, String.toList_append, List.append_assoc]
    exact hts
  · obtain rfl := h.eq_base hplace hkind
    obtain ⟨ps, hprojection, hheading⟩ := exists_closes_heading star hkind hfields
    obtain ⟨ts, hts, hcondition⟩ := hfilter
    have htail := (Writes.name hentity).append hts (Filter.stops_renderClause c.filter)
    refine ⟨_, ?_, .delete hprojection hcondition⟩
    simp only [base, String.toList_append, List.append_assoc]
    simpa using hheading.append_writes htail

theorem parse_ofCalls {kind : ChainKind} (hkind : kind = .select [] 0 0 ∨ kind = .delete)
    {fields : List String} {calls : List Call} (hcalls : ∀ x ∈ calls, x.IsWritable)
    (hc : ofCalls (ofFields kind fields) calls = some c) {st : Statement}
    (hbuild : c.build = .ok st) (star : Bool) :
    (parseStatement ((ofFields kind fields).text star calls)).result = .ok st := by
  obtain ⟨place, hall, hplace⟩ := exists_of_ofCalls hc
  have hstart : (ofFields kind fields).IsText star ((ofFields kind fields).heading star) .start :=
    ⟨rfl, hkind, rfl⟩
  have hwritable : (ofFields kind fields).IsWritable := by
    refine ⟨nofun, ?_⟩
    rintro _ _ _ hselect
    rcases hkind with rfl | rfl <;> cases hselect
    exact ⟨Nat.zero_lt_succ _, Nat.zero_lt_succ _⟩
  obtain ⟨ts, hts, hst⟩ := (hstart.calls hall).spells hplace (hwritable.calls hcalls hall) hbuild
  exact parseStatement_of_produces (hts.tokens_eq ▸ .statement hst)

/-- What the calls of a select or a delete build is read from the text that they write. -/
theorem parse_calls {fields : List String} {calls : List Call}
    (hcalls : ∀ x ∈ calls, x.IsWritable) :
    (∀ c st, select fields calls = some c → c.build = .ok st →
      (parseStatement ((ofFields (.select [] 0 0) fields).text true calls)).result = .ok st) ∧
    ∀ star c st, delete fields calls = some c → c.build = .ok st →
      (parseStatement ((ofFields .delete fields).text star calls)).result = .ok st :=
  ⟨fun _ _ hc hst => parse_ofCalls (.inl rfl) hcalls hc hst true,
    fun star _ _ hc hst => parse_ofCalls (.inr rfl) hcalls hc hst star⟩

theorem parse_calls_negated :
    ∃ st, (delete [] [.entity "T", .filter "x", .not, .predicate (.within (.parameter "p")),
        .or "y", .predicate (.compare .less (.literal (.int 1)))]).map build = some (.ok st) ∧
      (parseStatement "delete from T where not x in @p or y < 1").result = .ok st := by
  have hcalls : ∀ x ∈ ([.entity "T", .filter "x", .not, .predicate (.within (.parameter "p")),
      .or "y", .predicate (.compare .less (.literal (.int 1)))] : List Call), x.IsWritable := by
    have hparameter : (Operand.parameter "p").IsParsed :=
      Operand.isParsed_iff.2 (show Name.isDotted true _ = true by decide)
    have hint : (Operand.literal (.int 1)).IsParsed := Operand.isParsed_iff.2 trivial
    simp only [List.forall_mem_cons, Call.IsWritable, Predicate.operands]
    exact ⟨trivial, trivial, trivial, ⟨hparameter, nofun⟩, trivial, ⟨hint, nofun⟩, nofun⟩
  have htext : (ofFields .delete []).text false [.entity "T", .filter "x", .not,
      .predicate (.within (.parameter "p")), .or "y",
      .predicate (.compare .less (.literal (.int 1)))] =
        "delete from T where not x in @p or y < 1" := by
    decide +kernel
  have hparse := (@parse_calls [] _ hcalls).2 false _ _ rfl rfl
  rw [htext] at hparse
  exact ⟨_, rfl, hparse⟩

end Chain

end StoreQuery

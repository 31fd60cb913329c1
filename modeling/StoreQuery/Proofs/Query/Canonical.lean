import StoreQuery.Proofs.Grammar.Completeness
import StoreQuery.Proofs.Grammar.Rendering
import StoreQuery.Proofs.Grammar.Soundness
import StoreQuery.Proofs.Grammar.Spelling

/-! # Canonical texts

The canonical text of what text can give spells it. So a statement that was read from a text is read
again from its own text, and every readable statement is read from some text.
-/

namespace StoreQuery

open Grammar Condition

namespace Condition

variable {o : Connective} {c : Condition} {cs ps : List Condition}

theorem foldl_join_ofParts (h : ∀ c ∈ cs, c.operator ≠ o.operator) :
    cs.foldl o.join (o.ofParts ps) = o.ofParts (ps ++ cs) := by
  induction cs generalizing ps with
  | nil => rw [List.append_nil, List.foldl_nil]
  | cons c cs ih =>
    rw [List.forall_mem_cons] at h
    have hjoin : o.join (o.ofParts ps) c = o.ofParts (ps ++ [c]) := by
      have hne := h.1
      cases o <;> cases c <;> first | rfl | exact absurd rfl hne
    rw [List.foldl_cons, hjoin, ih h.2, List.append_assoc]
    rfl

theorem Readable.leaf {l : Condition} (h : c.Readable) (hl : l ∈ c.leaves) : l.Readable := by
  induction c using induction_on_parts with
  | leaf c hc =>
    rw [leaves_leaf hc] at hl
    exact List.mem_singleton.1 hl ▸ h
  | parts o cs ih =>
    rw [leaves_ofParts] at hl
    obtain ⟨c, hc, hl⟩ := List.mem_flatMap.1 hl
    exact ih c hc ((readable_ofParts.1 h).2.2 c hc) hl
  | not c ih => exact ih h hl

/-- A readable condition stays what it is when it is built anew. -/
theorem Readable.rebuild (h : c.Readable) : c.rebuild = .ok c := by
  induction c using induction_on_parts with
  | leaf c hc => exact rebuild_leaf hc
  | parts o cs ih =>
    obtain ⟨hlen, hne, hall⟩ := readable_ofParts.1 h
    have hmap : cs.mapM Condition.rebuild = .ok cs := by
      clear h hlen hne
      induction cs with
      | nil => rfl
      | cons c cs ihcs =>
        rw [List.forall_mem_cons] at ih hall
        exact mapM_rebuild_cons.2 ⟨c, cs, ih.1 hall.1, ihcs ih.2 hall.2, rfl⟩
    match cs with
    | c :: d :: cs =>
      refine rebuild_ofParts.2 ⟨c, d :: cs, hmap, ?_⟩
      have hjoin : o.join c d = o.ofParts [c, d] := by
        have hc := hne c List.mem_cons_self
        have hd := hne d (List.mem_cons_of_mem _ List.mem_cons_self)
        cases o <;> cases c <;> first
          | exact absurd rfl hc
          | cases d <;> first | rfl | exact absurd rfl hd
      rw [List.foldl_cons, hjoin, foldl_join_ofParts]
      · rfl
      · exact fun e he => hne e (List.mem_cons_of_mem _ (List.mem_cons_of_mem _ he))
  | not c ih => exact rebuild_not.2 ⟨c, ih h, rfl⟩

end Condition

theorem Value.spells {v : Value} (h : v.IsScalar) : Spells .value v.render.toList (.literal v) := by
  match v with
  | .null => exact .one (Writes.keyword .null) .valueNull
  | .bool true => exact .one (Writes.keyword .true) .valueTrue
  | .bool false => exact .one (Writes.keyword .false) .valueFalse
  | .int n => exact .one (Writes.integer n) (.valueNumber .integer)
  | .text s => exact .one (Closes.quote s).writes .valueText
  | .float (.finite x) =>
    refine .one (t := .float x) ?_ (.valueNumber .float)
    simpa only [render, String.toList_ofList, Number.Layout.write] using Writes.float rfl x

/-- Some characters render a condition wherever it needs no parentheses. -/
def RendersAs (cs : List Char) (c : Condition) : Prop :=
  ∃ ts, Writes cs ts ∧ ∀ site : Site, site.needs c = false → Renders (.condition site c) ts

theorem RendersAs.leaf {cs : List Char} {c : Condition} {field : String} {ts : List Token}
    (h : Writes cs (.name field :: ts)) (hc : Produces (.predicate field) ts c) :
    RendersAs cs c :=
  ⟨_, h, fun _ _ => .leaf hc⟩

/-- A condition is rendered at every site when the parentheses that it needs are written. -/
theorem RendersAs.enclose {c : Condition} (h : RendersAs c.render.toList c) (site : Site) :
    ∃ ts, Writes (Condition.enclose (site.needs c) c.render).toList ts ∧
      Renders (.condition site c) ts := by
  obtain ⟨ts, hts, hrenders⟩ := h
  cases hneeds : site.needs c with
  | false => exact ⟨ts, hts, hrenders site hneeds⟩
  | true =>
    refine ⟨_, ?_, .parens (hrenders .free rfl)⟩
    simp only [Condition.enclose, if_pos, String.toList_append, List.append_assoc]
    exact (Closes.mark (s := .leftParen) rfl).append_writes
      (hts.append (Closes.mark (s := .rightParen) rfl).writes rfl)

theorem stops_renderItems (xs : List Operand) :
    Token.stops (Operand.renderItems xs).toList = true := by
  cases xs with
  | nil => rfl
  | cons x xs =>
    simp only [Operand.renderItems, String.toList_append]
    rfl

theorem stops_renderAnd (cs : List Condition) : Token.stops (renderAnd cs).toList = true := by
  cases cs with
  | nil => rfl
  | cons c cs =>
    simp only [renderAnd, String.toList_append]
    rfl

theorem stops_renderOr (cs : List Condition) : Token.stops (renderOr cs).toList = true := by
  cases cs with
  | nil => rfl
  | cons c cs =>
    simp only [renderOr, String.toList_append]
    rfl

theorem stops_renderClause (c : Option Condition) :
    Token.stops (Condition.renderClause c).toList = true := by
  cases c with
  | none => rfl
  | some c =>
    rw [Condition.renderClause, String.toList_append]
    rfl

theorem stops_renderSorts (sorts : List SortKey) :
    Token.stops (SortKey.renderClause sorts).toList = true := by
  cases sorts with
  | nil => rfl
  | cons s sorts =>
    rw [SortKey.renderClause, String.toList_append]
    · rfl
    · exact List.cons_ne_nil s sorts

theorem stops_renderPaging (skip limit : UInt64) :
    Token.stops (Select.renderPaging skip limit).toList = true := by
  have hclause : ∀ (b : Prop) [Decidable b] (cs ds : String),
      Token.stops (if b then " " ++ cs ++ ds else "").toList = true := by
    intro b _ cs ds
    split
    · simp only [String.toList_append]
      rfl
    · rfl
  rw [Select.renderPaging, String.toList_append]
  exact Token.stops_append (hclause _ "skip " _) (hclause _ "limit " _)

theorem Spells.projection {fs : List String} (h : ∀ f ∈ fs, f ≠ "") :
    Spells .fields (if fs.isEmpty then "*" else Name.renderList fs).toList fs := by
  cases fs with
  | nil => exact ⟨_, (Closes.mark (s := .star) rfl).writes, .star⟩
  | cons f fs => exact Spells.fields nofun h

theorem exists_closes_delete {fs : List String} (h : ∀ f ∈ fs, f ≠ "") :
    ∃ ps, Produces .fields ps fs ∧
      Closes ("delete ".toList ++
          ((if fs.isEmpty then "" else Name.renderList fs ++ " ").toList ++ "from ".toList))
        (.keyword .delete :: (ps ++ [.keyword .fromWord])) := by
  cases fs with
  | nil => exact ⟨[], .noFields, (Closes.keyword .delete).append (.keyword .fromWord)⟩
  | cons f fs =>
    obtain ⟨ps, hps, hprojection⟩ := Spells.fields (List.cons_ne_nil f fs) h
    refine ⟨ps, hprojection, ?_⟩
    simp only [List.isEmpty_cons, Bool.false_eq_true, if_false, String.toList_append,
      List.append_assoc]
    exact (Closes.keyword .delete).append (hps.append_closes (Closes.spaced .fromWord) rfl nofun)

theorem Spells.select {ps cs os gs : List Char} {entity : String} {fs : List String}
    {condition : Option Condition} {sorts : List SortKey} {skip limit : UInt64}
    (hentity : entity ≠ "") (hfields : Spells .fields ps fs)
    (hcondition : Spells .filter cs condition) (hsorts : Spells .ordering os sorts)
    (hpaging : Spells .paging gs (skip, limit)) (hcs : Token.stops cs = true)
    (hos : Token.stops os = true) (hgs : Token.stops gs = true) :
    Spells .select
      ("select ".toList ++ (ps ++ (" from ".toList ++
        ((Name.render entity).toList ++ (cs ++ (os ++ gs))))))
      ⟨entity, fs, condition, sorts, skip, limit⟩ := by
  obtain ⟨ps, hps, hfields⟩ := hfields
  obtain ⟨ts, hts, hcondition⟩ := hcondition
  obtain ⟨us, hus, hsorts⟩ := hsorts
  obtain ⟨vs, hvs, hpaging⟩ := hpaging
  have hclauses := hts.append (hus.append hvs hgs) (Token.stops_append hos hgs)
  have htail := (Writes.name hentity).append hclauses
    (Token.stops_append hcs (Token.stops_append hos hgs))
  refine ⟨_, ?_, .select hfields hcondition hsorts hpaging⟩
  exact (Closes.keyword .select).append_writes
    (hps.append ((Closes.spaced .fromWord).append_writes htail) rfl)

mutual

theorem Operand.spells : ∀ v : Operand, v.Readable → Spells .value v.render.toList v
  | .literal v, h => v.spells h
  | .parameter n, h => by
    rw [Operand.render, String.toList_append]
    exact .one (Writes.parameter h) .valueParameter
  | .document j, h => by
    obtain ⟨ts, hts, hj⟩ := j.exists_derived h.2
    exact ⟨ts, hts, hj.value h.1⟩
  | .list [], h => absurd rfl h.1
  | .list (x :: xs), h => by
    obtain ⟨ts, hts, hx⟩ := x.spells h.2.1
    obtain ⟨us, hus, hxs⟩ := Operand.spells_items xs h.2.2
    refine ⟨_, ?_, .valueList hx hxs⟩
    simp only [Operand.render, String.toList_append, List.append_assoc]
    exact (Closes.mark (s := .leftBrace) rfl).append_writes (hts.append
      (hus.append_closes (.mark (s := .rightBrace) rfl) rfl nofun).writes
      (Token.stops_append (stops_renderItems xs) rfl))
  | .nested s, h => by
    obtain ⟨ts, hts, hs⟩ := s.spells h
    refine ⟨_, ?_, .valueSelect hs⟩
    simp only [Operand.render, String.toList_append, List.append_assoc]
    exact (Closes.mark (s := .leftParen) rfl).append_writes
      (hts.append (Closes.mark (s := .rightParen) rfl).writes rfl)

theorem Operand.spells_items : ∀ xs : List Operand, Operand.AllReadable xs →
    Spells (.more .value) (Operand.renderItems xs).toList xs
  | [], _ => ⟨[], .nil, .moreNil⟩
  | x :: xs, h => by
    obtain ⟨ts, hts, hx⟩ := x.spells h.1
    obtain ⟨us, hus, hxs⟩ := Operand.spells_items xs h.2
    refine ⟨_, ?_, .moreCons hx hxs⟩
    simp only [Operand.renderItems, String.toList_append, List.append_assoc]
    exact Closes.comma.append_writes (hts.append hus (stops_renderItems xs))

theorem Operand.spells_choices : ∀ v : Operand, v.isChoices = true → v.Readable →
    Spells .choices v.renderChoices.toList v
  | .literal v, hc, h => by
    cases v with
    | array => cases h
    | _ => cases hc
  | .parameter n, _, h => by
    rw [Operand.renderChoices, String.toList_append]
    exact .one (Writes.parameter h) (.choicesSingle .valueParameter rfl)
  | .document j, hc, h => by
    obtain ⟨ts, hts, hj⟩ := j.exists_derived h.2
    exact ⟨ts, hts, .choicesSingle (hj.value h.1) hc⟩
  | .list [], _, h => absurd rfl h.1
  | .list (x :: xs), _, h => by
    obtain ⟨ts, hts, hx⟩ := x.spells h.2.1
    obtain ⟨us, hus, hxs⟩ := Operand.spells_items xs h.2.2
    refine ⟨_, ?_, .choicesList hx hxs⟩
    simp only [Operand.renderChoices, String.toList_append, List.append_assoc]
    exact (Closes.mark (s := .leftParen) rfl).append_writes (hts.append
      (hus.append_closes (.mark (s := .rightParen) rfl) rfl nofun).writes
      (Token.stops_append (stops_renderItems xs) rfl))
  | .nested s, _, h => by
    obtain ⟨ts, hts, hs⟩ := s.spells h
    refine ⟨_, ?_, .choicesSingle (.valueSelect hs) rfl⟩
    simp only [Operand.renderChoices, String.toList_append, List.append_assoc]
    exact (Closes.mark (s := .leftParen) rfl).append_writes
      (hts.append (Closes.mark (s := .rightParen) rfl).writes rfl)

theorem Condition.renders : ∀ c : Condition, (∀ l ∈ c.leaves, l.Readable) →
    RendersAs c.render.toList c
  | .compare n o v, h => by
    obtain ⟨hn, hv⟩ : (Condition.compare n o v).Readable := h _ List.mem_cons_self
    obtain ⟨ts, hts, hv⟩ := v.spells hv
    obtain ⟨t, ht, hclose⟩ := Closes.comparison o
    simp only [String.toList_append, List.append_assoc] at hclose
    have hwrites := (Writes.name hn).append (hclose.append_writes hts) rfl
    refine .leaf ?_ (.compare ht hv)
    simp only [Condition.render, String.toList_append, List.append_assoc] at hwrites ⊢
    exact hwrites
  | .within n v, h => by
    obtain ⟨hn, hc, hv⟩ : (Condition.within n v).Readable := h _ List.mem_cons_self
    obtain ⟨ts, hts, hv⟩ := v.spells_choices hc hv
    refine .leaf ?_ (.within hv)
    simp only [Condition.render, String.toList_append, List.append_assoc]
    exact (Writes.name hn).append ((Closes.spaced .inWord).append_writes hts) rfl
  | .between n low high, h => by
    obtain ⟨hn, hlow, hhigh⟩ : (Condition.between n low high).Readable := h _ List.mem_cons_self
    obtain ⟨ts, hts, hlow⟩ := low.spells hlow
    obtain ⟨us, hus, hhigh⟩ := high.spells hhigh
    refine .leaf ?_ (.between hlow hhigh)
    simp only [Condition.render, String.toList_append, List.append_assoc]
    exact (Writes.name hn).append ((Closes.spaced .between).append_writes
      (hts.append ((Closes.spaced .and).append_writes hus) rfl)) rfl
  | .all [], _ => ⟨[], .nil, fun _ hsite => .empty (o := .and) hsite⟩
  | .all (c :: cs), h => by
    obtain ⟨hc, hcs⟩ := List.forall_mem_append.1 ((leaves_ofParts (o := .and)) ▸ h)
    obtain ⟨ts, hts, hc⟩ := (c.renders hc).enclose .conjunct
    obtain ⟨us, hus, hcs⟩ := Condition.renders_and cs hcs
    refine ⟨ts ++ us, ?_, fun _ hsite => .joined (o := .and) hsite hc hcs⟩
    rw [Condition.render, String.toList_append]
    exact hts.append hus (stops_renderAnd cs)
  | .any [], _ => ⟨[], .nil, fun _ hsite => .empty (o := .or) hsite⟩
  | .any (c :: cs), h => by
    obtain ⟨hc, hcs⟩ := List.forall_mem_append.1 ((leaves_ofParts (o := .or)) ▸ h)
    obtain ⟨ts, hts, hc⟩ := (c.renders hc).enclose .free
    obtain ⟨us, hus, hcs⟩ := Condition.renders_or cs hcs
    refine ⟨ts ++ us, ?_, fun _ hsite => .joined (o := .or) hsite hc hcs⟩
    rw [Condition.render, String.toList_append]
    exact hts.append hus (stops_renderOr cs)
  | .not c, h => by
    obtain ⟨ts, hts, hc⟩ := (c.renders h).enclose .negated
    refine ⟨_, ?_, fun _ _ => .not hc⟩
    rw [Condition.render, String.toList_append]
    exact (Closes.keyword .not).append_writes hts

theorem Condition.renders_and : ∀ cs : List Condition, (∀ l ∈ cs.flatMap leaves, l.Readable) →
    ∃ ts, Writes (Condition.renderAnd cs).toList ts ∧ Renders (.parts .and cs) ts
  | [], _ => ⟨[], .nil, .noParts⟩
  | c :: cs, h => by
    obtain ⟨hc, hcs⟩ := List.forall_mem_append.1 h
    obtain ⟨ts, hts, hc⟩ := (c.renders hc).enclose .conjunct
    obtain ⟨us, hus, hcs⟩ := Condition.renders_and cs hcs
    refine ⟨_, ?_, .parts hc hcs⟩
    simp only [Condition.renderAnd, String.toList_append, List.append_assoc]
    exact (Closes.spaced .and).append_writes (hts.append hus (stops_renderAnd cs))

theorem Condition.renders_or : ∀ cs : List Condition, (∀ l ∈ cs.flatMap leaves, l.Readable) →
    ∃ ts, Writes (Condition.renderOr cs).toList ts ∧ Renders (.parts .or cs) ts
  | [], _ => ⟨[], .nil, .noParts⟩
  | c :: cs, h => by
    obtain ⟨hc, hcs⟩ := List.forall_mem_append.1 h
    obtain ⟨ts, hts, hc⟩ := (c.renders hc).enclose .free
    obtain ⟨us, hus, hcs⟩ := Condition.renders_or cs hcs
    refine ⟨_, ?_, .parts hc hcs⟩
    simp only [Condition.renderOr, String.toList_append, List.append_assoc]
    exact (Closes.spaced .or).append_writes (hts.append hus (stops_renderOr cs))

theorem Condition.spells_clause : ∀ c : Option Condition, Condition.ClauseReadable c →
    Spells .filter (Condition.renderClause c).toList c
  | none, _ => ⟨[], .nil, .noFilter⟩
  | some c, h => by
    obtain ⟨ts, hts, hc⟩ := c.renders fun _ hl => h.leaf hl
    refine ⟨_, ?_, .filter ((hc .free rfl).produces h.rebuild)⟩
    rw [Condition.renderClause, String.toList_append]
    exact (Closes.spaced .whereWord).append_writes hts

theorem Select.spells : ∀ s : Select, s.Readable → Spells .select s.render.toList s
  | ⟨entity, fields, condition, sorts, skip, limit⟩, h => by
    obtain ⟨hentity, hfields, hcondition, hsorts, hskip, hlimit⟩ := h
    have hspells := Spells.select hentity (Spells.projection hfields)
      (Condition.spells_clause condition hcondition) (Spells.ordering hsorts)
      (Spells.paging hskip hlimit) (stops_renderClause condition) (stops_renderSorts sorts)
      (stops_renderPaging skip limit)
    simpa only [Select.render, String.toList_append, List.append_assoc] using hspells

end

theorem Condition.IsAssignment.spells {c : Condition} (h : c.IsAssignment) :
    Spells .assignment c.render.toList c := by
  obtain ⟨n, v, rfl, hn, hv⟩ := h
  obtain ⟨ts, hts, hv⟩ := v.spells hv
  refine ⟨_, ?_, .assignment hv⟩
  have hclose : Closes " = ".toList [.symbol .equal] :=
    .append .blank (.append (.mark (s := .equal) rfl) .blank)
  simp only [Condition.render, Comparison.render, String.toList_append, List.append_assoc]
  exact (Writes.name hn).append (hclose.append_writes hts) rfl

theorem Payload.Readable.spells {p : Payload} (h : p.Readable) :
    Spells .payload p.render.toList p := by
  match p with
  | .assignments [] => exact absurd rfl h.1
  | .assignments (c :: cs) =>
    have hall := List.forall_mem_cons.1 h.2
    obtain ⟨ts, us, hwrites, hc, hcs⟩ := Spells.intercalate (n := .assignment)
      (f := Condition.render) (fun d hd => (hall.2 d hd).spells) hall.1.spells
    refine ⟨_, ?_, .assignments hc hcs⟩
    rw [Payload.render, String.toList_append, String.toList_append, List.append_assoc]
    have hclose := hwrites.append_closes (Closes.mark (s := .rightParen) rfl) rfl nofun
    rw [List.append_assoc] at hclose
    exact (Closes.mark (s := .leftParen) rfl).append_writes hclose.writes
  | .document (.document j) =>
    obtain ⟨hcontainer, hj⟩ := h.2
    obtain ⟨ts, hts, hj⟩ := j.exists_derived hj
    exact ⟨ts, hts, hj.payload hcontainer⟩
  | .document (.parameter n) =>
    have hn := Writes.parameter h.2
    refine .one ?_ .payloadParameter
    rw [Payload.render, Operand.render, String.toList_append]
    exact hn
  | .document (.literal _) | .document (.list _) | .document (.nested _) =>
    obtain ⟨_, h⟩ | ⟨_, h⟩ := h.1 <;> cases h

theorem Grammar.produces_keys {v : Operand} {vs : List Operand} {ts us : List Token}
    (hv : Produces .value ts v) (hvs : Produces (.more .value) us vs) :
    Produces .keys (ts ++ us) (v :: vs) := by
  induction vs generalizing v ts us with
  | nil =>
    cases hvs
    rw [List.append_nil]
    exact .lastKey hv
  | cons w vs ih =>
    cases hvs with
    | moreCons hw hvs => exact .commaKey hv (ih hw hvs)

theorem Operand.spells_keys {ks : List Operand} (hne : ks ≠ []) (h : ∀ k ∈ ks, k.Readable) :
    Spells .keys (Operand.renderList ks).toList ks := by
  obtain ⟨k, ks, rfl⟩ := List.exists_cons_of_ne_nil hne
  rw [List.forall_mem_cons] at h
  obtain ⟨ts, hts, hk⟩ := k.spells h.1
  obtain ⟨us, hus, hks⟩ := Operand.spells_items ks (Operand.allReadable_iff.2 h.2)
  refine ⟨ts ++ us, ?_, produces_keys hk hks⟩
  rw [Operand.renderList, String.toList_append]
  exact hts.append hus (stops_renderItems ks)

theorem Delete.spells {s : Delete} (h : (Statement.delete s).Readable) :
    Spells .body s.render.toList (.delete s) := by
  obtain ⟨entity, fields, condition⟩ := s
  obtain ⟨hentity, hfields, hcondition⟩ := h
  obtain ⟨ts, hts, hfilter⟩ := Condition.spells_clause condition hcondition
  obtain ⟨ps, hprojection, hheading⟩ := exists_closes_delete hfields
  have htail := (Writes.name hentity).append hts (stops_renderClause condition)
  refine ⟨_, ?_, .delete hprojection hfilter⟩
  simp only [Delete.render, String.toList_append, List.append_assoc]
  simpa using hheading.append_writes htail

section Kept

variable {entity payload key v lifetime : String} {ts us vs : List Token}

theorem Writes.insertFor (hentity : entity ≠ "") (hts : Writes payload.toList ts)
    (hus : Writes lifetime.toList us) :
    Writes ("insert " ++ Name.render entity ++ " " ++ payload ++ (" " ++ lifetime)).toList
      (.keyword .insert :: .name entity :: (ts ++ us)) := by
  simp only [String.toList_append, List.append_assoc]
  exact (Closes.keyword .insert).append_writes
    ((Writes.name hentity).append (hts.append hus.blank rfl).blank rfl)

theorem Writes.putFor (hts : Writes key.toList ts) (hus : Writes v.toList us)
    (hvs : Writes lifetime.toList vs) :
    Writes ("put \x7b" ++ key ++ ", " ++ v ++ (", " ++ lifetime) ++ "\x7d").toList
      (.keyword .put :: .symbol .leftBrace ::
        (ts ++ .symbol .comma :: (us ++ .symbol .comma :: (vs ++ [.symbol .rightBrace])))) := by
  have hopen : Closes "put \x7b".toList [.keyword .put, .symbol .leftBrace] :=
    (Closes.keyword .put).append (.mark (s := .leftBrace) rfl)
  have hclose : Closes "\x7d".toList [.symbol .rightBrace] := .mark rfl
  simp only [String.toList_append, List.append_assoc]
  exact hopen.append_writes (hts.append (Closes.comma.append_writes (hus.append
    (Closes.comma.append_writes (hvs.append hclose.writes rfl)) rfl)) rfl)

end Kept

theorem Put.spells {s : Put} (h : (Statement.put s).Readable) :
    Spells .body (Statement.put s).render.toList (.put s) := by
  obtain ⟨key, v, ttl⟩ := s
  obtain ⟨hk, hw, httl⟩ := h
  obtain ⟨ts, hts, hkey⟩ := key.spells hk
  obtain ⟨us, hus, hv⟩ := v.spells hw
  cases ttl with
  | none =>
    have hopen : Closes "put \x7b".toList [.keyword .put, .symbol .leftBrace] :=
      (Closes.keyword .put).append (.mark (s := .leftBrace) rfl)
    have hclose : Closes "\x7d".toList [.symbol .rightBrace] := .mark rfl
    refine ⟨_, ?_, .put hkey hv⟩
    simp only [Statement.render, String.toList_append, List.append_assoc]
    exact hopen.append_writes
      (hts.append (Closes.comma.append_writes (hus.append hclose.writes rfl)) rfl)
  | some t =>
    obtain ⟨vs, hvs, ht⟩ := Spells.lifetime (httl t rfl)
    exact ⟨_, .putFor hts hus hvs, .putFor hkey hv ht⟩

/-- The text of a readable statement spells it. -/
theorem Statement.spells {s : Statement} (h : s.Readable) : Spells .body s.render.toList s := by
  cases s with
  | select s =>
    obtain ⟨ts, hts, hs⟩ := s.spells h
    exact ⟨ts, hts, .bodySelect hs⟩
  | insert s =>
    obtain ⟨entity, payload, ttl⟩ := s
    obtain ⟨hentity, hpayload, httl⟩ := h
    obtain ⟨ts, hts, hpayload⟩ := Payload.Readable.spells hpayload
    cases ttl with
    | none =>
      refine ⟨_, ?_, @Derives.insert _ false _ _ _ hpayload⟩
      simp only [render, String.toList_append, String.toList_empty, List.append_nil,
        List.append_assoc]
      exact (Closes.keyword .insert).append_writes ((Writes.name hentity).append hts.blank rfl)
    | some t =>
      obtain ⟨us, hus, ht⟩ := Spells.lifetime (httl t rfl)
      exact ⟨_, .insertFor hentity hts hus, @Derives.insertFor _ false _ _ _ _ _ hpayload ht⟩
  | update s =>
    obtain ⟨hentity, hpayload⟩ := h
    obtain ⟨ts, hts, hpayload⟩ := Payload.Readable.spells hpayload
    refine ⟨_, ?_, .update hpayload⟩
    simp only [render, String.toList_append, List.append_assoc]
    exact (Closes.keyword .update).append_writes ((Writes.name hentity).append hts.blank rfl)
  | delete s => exact Delete.spells h
  | get ks =>
    obtain ⟨ts, hts, hks⟩ := Operand.spells_keys h.1 h.2
    refine ⟨_, ?_, .get hks⟩
    rw [render, String.toList_append]
    exact (Closes.keyword .get).append_writes hts
  | put s => exact Put.spells h
  | del ks =>
    obtain ⟨ts, hts, hks⟩ := Operand.spells_keys h.1 h.2
    refine ⟨_, ?_, .del hks⟩
    rw [render, String.toList_append]
    exact (Closes.keyword .del).append_writes hts

namespace Grammar

theorem readable_of_parseStatement {text : String} {s : Statement}
    (h : (parseStatement text).result = .ok s) : s.Readable :=
  isReadable_of_produces (produces_of_parseStatement h)
    (fun _ ht => Lexeme.isRead_of_mem_tokens ht)

theorem parseStatement_of_readable {s : Statement} (h : s.Readable) :
    (parseStatement s.render).result = .ok s := by
  obtain ⟨ts, hts, hs⟩ := s.spells h
  exact parseStatement_of_produces (hts.tokens_eq ▸ .statement hs)

/-- The readable statements are the ones that are read from texts. -/
theorem readable_iff {s : Statement} :
    s.Readable ↔ ∃ text, (parseStatement text).result = .ok s :=
  ⟨fun h => ⟨s.render, parseStatement_of_readable h⟩, fun ⟨_, h⟩ => readable_of_parseStatement h⟩

/-- A statement that was read from a text is read again from its canonical text, which is then the
text of what was read. -/
theorem parseStatement_render {text : String} {s : Statement}
    (h : (parseStatement text).result = .ok s) :
    (parseStatement s.render).result = .ok s ∧
      (parseStatement s.render).result.map Statement.render = .ok s.render := by
  have hrender := parseStatement_of_readable (readable_of_parseStatement h)
  exact ⟨hrender, by rw [hrender]; rfl⟩

theorem parseStatement_render_negation :
    ∃ s,
      (parseStatement "SELECT a FROM T WHERE NOT (x > -1.50 OR y IN (@p, null))").result = .ok s ∧
      s.render = "select a from T where not (x > -1.5 or y in (@p, null))" ∧
      (parseStatement s.render).result = .ok s ∧
      (parseStatement s.render).result.map Statement.render = .ok s.render := by
  have hrender : (parseStatement
      "SELECT a FROM T WHERE NOT (x > -1.50 OR y IN (@p, null))").result.toOption.map
        Statement.render = some "select a from T where not (x > -1.5 or y in (@p, null))" := by
    decide +kernel
  cases h : (parseStatement "SELECT a FROM T WHERE NOT (x > -1.50 OR y IN (@p, null))").result with
  | error => rw [h] at hrender; cases hrender
  | ok s =>
    rw [h] at hrender
    exact ⟨s, rfl, Option.some.inj hrender, parseStatement_render h⟩

end Grammar

end StoreQuery

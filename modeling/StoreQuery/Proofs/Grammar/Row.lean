import StoreQuery.Query.Chain

/-! # Rows of phrases

Items with separators between them, and conditions with connectives between them. A flat row of
conditions splits into conjunctions with `or` between them, and joining the row gives the
disjunction of the conjunctions.
-/

namespace StoreQuery

def Connective.token : Connective → Token
  | and => .keyword .and
  | or => .keyword .or

namespace Condition

/-- Conditions joined by their connectives, `and` binding tighter than `or`: the conjunction that is
open, and the disjunction before it. -/
def joinAfter (before : Option Condition) (conjunction : Condition) :
    List (Connective × Condition) → Condition
  | [] => (before.map (·.or conjunction)).getD conjunction
  | (.and, c) :: rest => joinAfter before (conjunction.and c) rest
  | (.or, c) :: rest =>
    joinAfter (some ((before.map (·.or conjunction)).getD conjunction)) c rest

def join (first : Condition) (others : List (Connective × Condition)) : Condition :=
  joinAfter none first others

instance : Std.Associative Condition.and :=
  ⟨and_assoc⟩

instance : Std.Associative Condition.or :=
  ⟨or_assoc⟩

theorem joinAfter_and (before : Option Condition) (c : Condition) (ds : List Condition)
    (rest : List (Connective × Condition)) :
    joinAfter before c (ds.map (Connective.and, ·) ++ rest) =
      joinAfter before (ds.foldl and c) rest := by
  induction ds generalizing c with
  | nil => rfl
  | cons d ds ih => exact ih _

section Collecting

variable {α : Type} {f : Condition → List α} {c d : Condition}

theorem collect_and (hall : ∀ cs, f (.all cs) = cs.flatMap f) : f (c.and d) = f c ++ f d := by
  have hconjuncts : ∀ c : Condition, c.conjuncts.flatMap f = f c := by
    intro c
    cases c with
    | all cs => exact (hall cs).symm
    | _ => exact List.flatMap_singleton ..
  rw [and, hall, List.flatMap_append, hconjuncts, hconjuncts]

theorem collect_or (hany : ∀ cs, f (.any cs) = cs.flatMap f) : f (c.or d) = f c ++ f d := by
  have hdisjuncts : ∀ c : Condition, c.disjuncts.flatMap f = f c := by
    intro c
    cases c with
    | any cs => exact (hany cs).symm
    | _ => exact List.flatMap_singleton ..
  rw [or, hany, List.flatMap_append, hdisjuncts, hdisjuncts]

/-- What is collected part by part is collected from a joined row in the order of the row. -/
theorem collect_join (hall : ∀ cs, f (.all cs) = cs.flatMap f)
    (hany : ∀ cs, f (.any cs) = cs.flatMap f) (c : Condition)
    (cs : List (Connective × Condition)) :
    f (join c cs) = f c ++ cs.flatMap fun d => f d.2 := by
  have hafter : ∀ before, f (joinAfter before c cs) =
      before.toList.flatMap f ++ f c ++ cs.flatMap fun d => f d.2 := by
    have hclose : ∀ {before : Option Condition} {c : Condition},
        f ((before.map (·.or c)).getD c) = before.toList.flatMap f ++ f c := by
      intro before c
      cases before with
      | none => rfl
      | some b => simpa using collect_or hany
    induction cs generalizing c with
    | nil =>
      intro before
      rw [joinAfter, hclose, List.flatMap_nil, List.append_nil]
    | cons d cs ih =>
      intro before
      obtain ⟨o, d⟩ := d
      cases o with
      | and => simp [joinAfter, ih, collect_and hall]
      | or => simp [joinAfter, ih, hclose]
  exact hafter none

end Collecting

end Condition

namespace Grammar

/-- A row of phrases, each after a separator. -/
inductive Further {α : Type} (separator : Token) (P : List Token → α → Prop) :
    List Token → List α → Prop where
  | nil : Further separator P [] []
  | cons {ts us : List Token} {a : α} {as : List α} (item : P ts a)
      (items : Further separator P us as) :
      Further separator P (separator :: (ts ++ us)) (a :: as)

section Rows

variable {α : Type} {separator : Token} {f : α → α → α} {P Q : List Token → α → Prop}
  {ts us : List Token} {a b : α} {as bs : List α}

theorem Further.mono (h : Further separator P ts as) (hPQ : ∀ ts a, P ts a → Q ts a) :
    Further separator Q ts as := by
  induction h with
  | nil => exact .nil
  | cons item _ ih => exact .cons (hPQ _ _ item) ih

theorem Further.append (h : Further separator P ts as) (h' : Further separator P us bs) :
    Further separator P (ts ++ us) (as ++ bs) := by
  induction h with
  | nil => exact h'
  | cons item _ ih =>
    rw [List.cons_append, List.append_assoc]
    exact .cons item ih

/-- Items with separators between them, put together from the left. -/
def IsRow (separator : Token) (f : α → α → α) (P : List Token → α → Prop) (ts : List Token)
    (a : α) : Prop :=
  ∃ us vs b bs, ts = us ++ vs ∧ P us b ∧ Further separator P vs bs ∧ a = bs.foldl f b

theorem IsRow.single (h : P ts a) : IsRow separator f P ts a :=
  ⟨ts, [], a, [], (List.append_nil ts).symm, h, .nil, rfl⟩

theorem IsRow.mono (h : IsRow separator f P ts a) (hPQ : ∀ ts a, P ts a → Q ts a) :
    IsRow separator f Q ts a := by
  obtain ⟨us, vs, b, bs, rfl, hb, hbs, rfl⟩ := h
  exact ⟨us, vs, b, bs, rfl, hPQ _ _ hb, hbs.mono hPQ, rfl⟩

variable [Std.Associative f]

theorem IsRow.append (h : IsRow separator f P ts a) (h' : IsRow separator f P us b) :
    IsRow separator f P (ts ++ separator :: us) (f a b) := by
  obtain ⟨ts, vs, a, as, rfl, ha, has, rfl⟩ := h
  obtain ⟨us, ws, b, bs, rfl, hb, hbs, rfl⟩ := h'
  refine ⟨ts, vs ++ separator :: (us ++ ws), a, as ++ b :: bs, List.append_assoc .., ha,
    has.append (.cons hb hbs), ?_⟩
  rw [List.foldl_append, List.foldl_cons, List.foldl_assoc]

/-- A row of rows is a row. -/
theorem IsRow.append_further (h : IsRow separator f P ts a)
    (h' : Further separator (IsRow separator f P) us as) :
    IsRow separator f P (ts ++ us) (as.foldl f a) := by
  induction h' generalizing ts a with
  | nil => rwa [List.append_nil]
  | @cons vs _ b _ item _ ih =>
    have hrow := ih (h.append item)
    rwa [List.append_assoc] at hrow

end Rows

section Conditions

variable (P : List Token → Condition → Prop)

inductive Linked : List Token → List (Connective × Condition) → Prop where
  | nil : Linked [] []
  | cons {o : Connective} {ts us : List Token} {c : Condition}
      {cs : List (Connective × Condition)} (part : P ts c) (parts : Linked us cs) :
      Linked (o.token :: (ts ++ us)) ((o, c) :: cs)

/-- The tokens of a conjunction: conditions with `and` between them. -/
abbrev IsConjunction : List Token → Condition → Prop :=
  IsRow (.keyword .and) .and P

abbrev IsDisjunction : List Token → Condition → Prop :=
  IsRow (.keyword .or) .or (IsConjunction P)

variable {P} {ts us vs : List Token}

theorem Further.linked {ds : List Condition} {rest : List (Connective × Condition)}
    (h : Further (.keyword .and) P vs ds) (hrest : Linked P ts rest) :
    Linked P (vs ++ ts) (ds.map (Connective.and, ·) ++ rest) := by
  induction h with
  | nil => exact hrest
  | cons item _ ih =>
    rw [List.cons_append, List.append_assoc]
    exact .cons (o := .and) item ih

theorem Further.exists_linked {cs : List Condition}
    (h : Further (.keyword .or) (IsConjunction P) ts cs) :
    ∃ rest, Linked P ts rest ∧ ∀ before c,
      Condition.joinAfter before c rest = cs.foldl .or ((before.map (·.or c)).getD c) := by
  induction h with
  | nil => exact ⟨[], .nil, fun _ _ => rfl⟩
  | cons item _ ih =>
    obtain ⟨us, vs, d, ds, rfl, hd, hds, rfl⟩ := item
    obtain ⟨rest, hrest, hjoin⟩ := ih
    refine ⟨(.or, d) :: (ds.map (Connective.and, ·) ++ rest), ?_, fun before c => ?_⟩
    · rw [List.append_assoc]
      exact .cons (o := .or) hd (hds.linked hrest)
    · rw [Condition.joinAfter, Condition.joinAfter_and, hjoin]
      rfl

theorem IsDisjunction.exists_linked {c : Condition} (h : IsDisjunction P ts c) :
    ∃ us vs d rest, ts = us ++ vs ∧ P us d ∧ Linked P vs rest ∧ c = .join d rest := by
  obtain ⟨_, us, _, cs, rfl, ⟨ts, vs, d, ds, rfl, hd, hds, rfl⟩, hcs, rfl⟩ := h
  obtain ⟨rest, hrest, hjoin⟩ := hcs.exists_linked
  refine ⟨ts, vs ++ us, d, ds.map (Connective.and, ·) ++ rest, List.append_assoc .., hd,
    hds.linked hrest, ?_⟩
  rw [Condition.join, Condition.joinAfter_and, hjoin]
  rfl

/-- A flat row begins with what continues a conjunction, and goes on with further conjunctions. -/
theorem Linked.exists_further {cs : List (Connective × Condition)} (h : Linked P ts cs) :
    ∃ us vs ds es, ts = us ++ vs ∧ Further (.keyword .and) P us ds ∧
      Further (.keyword .or) (IsConjunction P) vs es ∧ ∀ before c,
        Condition.joinAfter before c cs =
          es.foldl .or ((before.map (·.or (ds.foldl .and c))).getD (ds.foldl .and c)) := by
  induction h with
  | nil => exact ⟨[], [], [], [], rfl, .nil, .nil, fun _ _ => rfl⟩
  | @cons o ts _ c _ part _ ih =>
    obtain ⟨us, vs, ds, es, rfl, hds, hes, hjoin⟩ := ih
    cases o with
    | and =>
      refine ⟨.keyword .and :: (ts ++ us), vs, c :: ds, es, ?_, .cons part hds, hes, fun _ _ => ?_⟩
      · rw [List.cons_append, List.append_assoc]
        rfl
      · exact hjoin _ _
    | or =>
      refine ⟨[], .keyword .or :: ((ts ++ us) ++ vs), [], ds.foldl .and c :: es, ?_, .nil,
        .cons ⟨ts, us, c, ds, rfl, part, hds, rfl⟩ hes, fun _ _ => ?_⟩
      · rw [List.append_assoc]
        rfl
      · rw [Condition.joinAfter, hjoin]
        rfl

theorem Linked.disjunction {c : Condition} {cs : List (Connective × Condition)}
    (hc : P us c) (h : Linked P vs cs) : IsDisjunction P (us ++ vs) (.join c cs) := by
  obtain ⟨ws, xs, ds, es, rfl, hds, hes, hjoin⟩ := h.exists_further
  exact ⟨us ++ ws, xs, ds.foldl .and c, es, (List.append_assoc ..).symm,
    ⟨us, ws, c, ds, rfl, hc, hds, rfl⟩, hes, hjoin none c⟩

end Conditions

end Grammar

end StoreQuery

import StoreQuery.Proofs.Grammar.Trail

/-! # Trails descend

What begins has a weight, which counts the tokens that are left and, with the same tokens, goes down
in the order of the stages. The weights of a trail fall: where a token is taken there are fewer of
them left, and where none is, one stage is named before the other. So a stage that begins again has
fewer tokens left, and a trail is not longer than its first weight.
-/

namespace StoreQuery.Grammar

def Stage.rank (s : Stage) : Nat :=
  63 - s.ctorIdx

theorem Stage.rank_lt (s : Stage) : s.rank < 64 :=
  Nat.lt_succ_of_le (Nat.sub_le _ _)

/-- The level of a number of tokens that are left and a rank, which is at most 64. -/
def level (left rank : Nat) : Nat :=
  64 * left + rank

theorem level_mono {left rank rank' : Nat} (h : rank ≤ rank') :
    level left rank ≤ level left rank' :=
  Nat.add_le_add_left h _

theorem level_succ (left : Nat) : level (left + 1) 0 = level left 64 := by
  rw [level, level, Nat.mul_succ]

def Visit.weight (v : Visit) : Nat :=
  level v.left v.stage.rank

/-- The weights of a trail fall, from below a level of the cursor where the rule begins to a level
of the one where it ends, if it ends with a result. -/
structure Descends {α : Type} {r : Rule α} (w : Trail r) (c : Cursor) (top bottom : Nat) :
    Prop where
  pairwise : (w.visits c).Pairwise fun v u => u.weight < v.weight
  lt_top : ∀ v ∈ w.visits c, v.weight < level c.left top
  bottom_le_top : ∀ a d, r c = .done a d → level d.left bottom ≤ level c.left top
  bottom_le : ∀ a d, r c = .done a d → ∀ v ∈ w.visits c, level d.left bottom ≤ v.weight

open Rule

namespace Descends

variable {α β : Type} {r r' : Rule α} {f : α → Rule β} {w : Trail r} {w' : Trail r'}
  {g : ∀ a, Trail (f a)} {c : Cursor} {top top' mid bottom : Nat}

/-- A rule descends as another one does that goes on from a level which is not above its own. -/
theorem of_eq {d : Cursor} (h : Descends w' d top' bottom)
    (hd : level d.left top' ≤ level c.left top) (hw : w.visits c = w'.visits d)
    (heq : r c = r' d) : Descends w c top bottom where
  pairwise := hw ▸ h.pairwise
  lt_top v hv := Nat.lt_of_lt_of_le (h.lt_top v (hw ▸ hv)) hd
  bottom_le_top a e he := Nat.le_trans (h.bottom_le_top a e (heq ▸ he)) hd
  bottom_le a e he v hv := h.bottom_le a e (heq ▸ he) v (hw ▸ hv)

theorem of_le (h : Descends w c top' bottom) (htop : top' ≤ top) : Descends w c top bottom :=
  h.of_eq (level_mono htop) rfl rfl

/-- Behind a token every stage may begin. -/
theorem fresh {s : Stage} (h : Descends w c (s.rank + 1) bottom) : Descends w c 64 bottom :=
  h.of_le s.rank_lt

theorem plain (h : ∀ a d, r c = .done a d → level d.left bottom ≤ level c.left top) :
    Descends (.plain : Trail r) c top bottom where
  pairwise := .nil
  lt_top := nofun
  bottom_le_top := h
  bottom_le _ _ _ := nofun

/-- A rule in which no stage begins takes what it takes along any trail. -/
theorem of_trail (w : Trail r) (h : Descends w c top bottom) :
    Descends (.plain : Trail r) c top bottom :=
  plain h.bottom_le_top

theorem pure {a : α} : Descends (.plain : Trail (Pure.pure a)) c bottom bottom :=
  plain <| by
    rintro _ _ ⟨⟩
    exact Nat.le_refl _

theorem fail {fault : GrammarFault} :
    Descends (.plain : Trail (Rule.fail fault : Rule α)) c top bottom :=
  plain nofun

theorem unexpected {wanted : Expectation} :
    Descends (.plain : Trail (Rule.unexpected wanted : Rule α)) c top bottom :=
  plain nofun

theorem exhausted : Descends (.plain : Trail (Rule.exhausted : Rule α)) c top bottom :=
  plain nofun

theorem formed {x : Except QueryError α} :
    Descends (.plain : Trail (Rule.formed x)) c bottom bottom := by
  cases x with
  | ok => exact pure
  | error => exact plain nofun

theorem enter {s : Stage} (h : Descends w c s.rank bottom) :
    Descends (.enter s w) c (s.rank + 1) bottom where
  pairwise := .cons h.lt_top h.pairwise
  lt_top :=
    List.forall_mem_cons.2 ⟨Nat.lt_succ_self _, fun v hv => Nat.lt_succ_of_lt (h.lt_top v hv)⟩
  bottom_le_top a d hd := Nat.le_succ_of_le (h.bottom_le_top a d hd)
  bottom_le a d hd := List.forall_mem_cons.2 ⟨h.bottom_le_top a d hd, h.bottom_le a d hd⟩

theorem bind_of_not_done (hr : Descends w c top mid) (h : ∀ a d, r c ≠ .done a d) :
    Descends (.bind w g) c top bottom := by
  have hw : (Trail.bind w g).visits c = w.visits c := Trail.visits_bind_of_not_done h
  have hne : ∀ b d, (r >>= f) c ≠ .done b d := by
    rw [bind_apply]
    cases hrc : r c with
    | done a d => exact absurd hrc (h a d)
    | failed | exhausted => exact nofun
  constructor
  · rw [hw]
    exact hr.pairwise
  · rw [hw]
    exact hr.lt_top
  · exact fun b d hd => absurd hd (hne b d)
  · exact fun b d hd => absurd hd (hne b d)

theorem bind (hr : Descends w c top mid) (hf : ∀ a d, Descends (g a) d mid bottom) :
    Descends (.bind w g) c top bottom := by
  cases hrc : r c with
  | done a d =>
    have hf := hf a d
    have heq : (r >>= f) c = f a d := by rw [bind_apply, hrc]
    have hmid := hr.bottom_le a d hrc
    have htop := hr.bottom_le_top a d hrc
    constructor
    · rw [Trail.visits_bind_of_done hrc, List.pairwise_append]
      refine ⟨hr.pairwise, hf.pairwise, fun v hv u hu => ?_⟩
      exact Nat.lt_of_lt_of_le (hf.lt_top u hu) (hmid v hv)
    · rw [Trail.visits_bind_of_done hrc, List.forall_mem_append]
      exact ⟨hr.lt_top, fun u hu => Nat.lt_of_lt_of_le (hf.lt_top u hu) htop⟩
    · rw [heq]
      exact fun b e he => Nat.le_trans (hf.bottom_le_top b e he) htop
    · rw [heq, Trail.visits_bind_of_done hrc]
      refine fun b e he => List.forall_mem_append.2 ⟨fun v hv => ?_, hf.bottom_le b e he⟩
      exact Nat.le_trans (hf.bottom_le_top b e he) (hmid v hv)
  | failed | exhausted => exact hr.bind_of_not_done (by rw [hrc]; exact nofun)

theorem ite {p : Prop} [Decidable p] (h : Descends w c top bottom)
    (h' : Descends w' c top bottom) : Descends (.ite (p := p) w w') c top bottom := by
  by_cases hp : p
  · exact h.of_eq (Nat.le_refl _) (if_pos hp) (by rw [if_pos hp])
  · exact h'.of_eq (Nat.le_refl _) (if_neg hp) (by rw [if_neg hp])

theorem peek {g : Token → Rule β} {w : ∀ t, Trail (g t)}
    (h : Descends (w c.token) c top bottom) :
    Descends (.bind (.plain : Trail Rule.peek) w) c top bottom :=
  h.of_eq (Nat.le_refl _) rfl rfl

theorem mention {p : String} {g : Unit → Rule β} {w : ∀ u, Trail (g u)}
    (h : Descends (w ()) { c with mentioned := c.mentioned ++ [p] } top bottom) :
    Descends (.bind (.plain : Trail (Rule.mention p)) w) c top bottom :=
  h.of_eq (Nat.le_refl _) rfl rfl

/-- A token that is taken makes up for any stage. -/
theorem of_next {t : Token} (ht : c.token = t) (hne : t ≠ .eof) (h : Descends w' c.next 64 bottom)
    (hw : w.visits c = w'.visits c.next) (heq : r c = r' c.next) : Descends w c top bottom := by
  refine h.of_eq ?_ hw heq
  rw [← level_succ, Cursor.left_next ht hne]
  exact level_mono (Nat.zero_le _)

theorem advance {g : Unit → Rule β} {w : ∀ u, Trail (g u)} {t : Token} (ht : c.token = t)
    (hne : t ≠ .eof) (h : Descends (w ()) c.next 64 bottom) :
    Descends (.bind (.plain : Trail Rule.advance) w) c top bottom :=
  of_next ht hne h rfl rfl

theorem accept {r r' : Rule β} {w : Trail r} {w' : Trail r'} {t : Token} (hne : t ≠ .eof)
    (htrue : Descends w c.next 64 bottom) (hfalse : Descends w' c top bottom) :
    Descends (.bind (.plain : Trail (Rule.accept t)) fun b => .ite (p := b = true) w w')
      c top bottom := by
  by_cases ht : c.token = t
  · have haccept : Rule.accept t c = .done true c.next := by rw [Rule.accept, if_pos ht]
    exact of_next ht hne htrue (by rw [Trail.visits_bind_of_done haccept]; rfl)
      (by rw [bind_apply, haccept]; rfl)
  · have haccept : Rule.accept t c = .done false c := by rw [Rule.accept, if_neg ht]
    exact hfalse.of_eq (Nat.le_refl _) (by rw [Trail.visits_bind_of_done haccept]; rfl)
      (by rw [bind_apply, haccept]; rfl)

theorem pass {t : Token} (hne : t ≠ .eof) :
    Descends (.plain : Trail (Rule.accept t)) c bottom bottom := by
  refine plain fun b d h => ?_
  rw [Rule.accept] at h
  split at h
  · next ht =>
    cases h
    rw [← Cursor.left_next ht hne]
    exact Nat.add_le_add_right (Nat.mul_le_mul_left _ (Nat.le_succ _)) _
  · cases h
    exact Nat.le_refl _

theorem taken {a : α} {t : Token} (ht : c.token = t) (hne : t ≠ .eof) :
    Descends (.plain : Trail (Rule.advance >>= fun _ => Pure.pure a)) c top 64 :=
  of_trail (.bind .plain fun _ => .plain) (advance ht hne pure)

theorem symbol {s : Symbol} : Descends (.plain : Trail (Rule.symbol s)) c top 64 :=
  of_trail (.bind .plain fun _ => .ite .plain .plain) (accept nofun pure unexpected)

theorem keyword {k : Keyword} : Descends (.plain : Trail (Rule.keyword k)) c top 64 :=
  of_trail (.bind .plain fun _ => .ite .plain .plain) (accept nofun pure unexpected)

theorem name : Descends (.plain : Trail Rule.name) c top 64 := by
  refine of_trail (.bind .plain fun _ => .plain) (peek ?_)
  cases ht : c.token with
  | name => exact taken ht nofun
  | _ => exact unexpected

theorem text : Descends (.plain : Trail Rule.text) c top 64 := by
  refine of_trail (.bind .plain fun _ => .plain) (peek ?_)
  cases ht : c.token with
  | text => exact taken ht nofun
  | _ => exact unexpected

theorem count : Descends (.plain : Trail Rule.count) c top 64 := by
  refine of_trail (.bind .plain fun _ => .plain) (peek ?_)
  cases ht : c.token with
  | integer => exact of_trail (.ite .plain .plain) (ite fail (taken ht nofun))
  | _ => exact unexpected

section Loops

variable {r : Nat → Rule α} {w : ∀ limit, Trail (r limit)} {item : Rule α} {v : Trail item}
  {separator : Token} {turn : Stage}

theorem loop (h : Descends (w (c.rest.length + 1)) c top bottom) :
    Descends (.loop w) c top bottom :=
  h.of_eq (Nat.le_refl _) rfl rfl

/-- Between two turns a separator is taken, and the turn comes after the stages with which an item
may end. -/
theorem furtherUpTo (hne : separator ≠ .eof) (hitem : ∀ d, Descends v d 64 mid)
    (hmid : turn.rank < mid) (limit : Nat) : ∀ c,
      Descends (.furtherUpTo turn v limit : Trail (Rule.furtherUpTo separator item limit)) c
        (turn.rank + 1) turn.rank := by
  induction limit with
  | zero => exact fun _ => exhausted
  | succ limit ih =>
    intro c
    refine enter (accept hne ?_ pure)
    exact bind (hitem _) fun _ d => bind ((ih d).of_le hmid) fun _ _ => pure

theorem further (hne : separator ≠ .eof) (hitem : ∀ d, Descends v d 64 mid)
    (hmid : turn.rank < mid) :
    Descends (.further turn v : Trail (Rule.further separator item)) c (turn.rank + 1) turn.rank :=
  loop (furtherUpTo hne hitem hmid _ c)

theorem list (hfirst : Descends v c top mid) (hitem : ∀ d, Descends v d 64 mid)
    (hmid : turn.rank < mid) : Descends (.list turn v) c top turn.rank :=
  bind hfirst fun _ _ => bind ((further (by nofun) hitem hmid).of_le hmid) fun _ _ => pure

end Loops

end Descends

section Trails

variable {α : Type} {r : Rule α} {w : Trail r} {c : Cursor} {top bottom : Nat}

/-- Whether each stage takes a token before it begins again. -/
def IsSpaced (vs : List Visit) : Prop :=
  vs.Pairwise fun v u => v.stage = u.stage → u.left < v.left

theorem Descends.isSpaced (h : Descends w c top bottom) : IsSpaced (w.visits c) := by
  refine h.pairwise.imp fun {v u} hlt hstage => ?_
  rw [Visit.weight, Visit.weight, hstage] at hlt
  exact Nat.lt_of_mul_lt_mul_left (Nat.lt_of_add_lt_add_right hlt)

theorem length_le_of_falls {α : Type} {weight : α → Nat} {xs : List α} {n : Nat}
    (h : xs.Pairwise fun x y => weight y < weight x) (hn : ∀ x ∈ xs, weight x < n) :
    xs.length ≤ n := by
  induction xs generalizing n with
  | nil => exact Nat.zero_le _
  | cons x xs ih =>
    obtain ⟨hx, hxs⟩ := List.pairwise_cons.1 h
    exact Nat.lt_of_le_of_lt (ih hxs hx) (hn x List.mem_cons_self)

theorem Descends.length_le (h : Descends w c top bottom) :
    (w.visits c).length ≤ level c.left top :=
  length_le_of_falls h.pairwise h.lt_top

end Trails

end StoreQuery.Grammar

import StoreQuery.Proofs.Grammar.Completeness
import StoreQuery.Proofs.Grammar.Rendering

/-! # What rules refuse

A rule refuses some tokens if it fails on them with a fault of grammar, whatever the fault is. A
condition is refused from the first place on where a part is missing, so a rendering of a condition
with an empty list of parts is refused.
-/

namespace StoreQuery.Grammar

open Condition Rule

section Fails

variable {α β : Type} {r : Rule α} {f : α → Rule β} {ts us rest : List Token} {a : α}

/-- A rule fails on some tokens with a fault of grammar. -/
def Fails (r : Rule α) (ts : List Token) : Prop :=
  ∀ c : Cursor, c.tokens = ts → ∃ e c', r c = .failed (.grammar e) c'

namespace Fails

theorem bind (h : Fails r ts) : Fails (r >>= f) ts := by
  intro c hc
  obtain ⟨e, c', hr⟩ := h c hc
  exact ⟨e, c', by rw [bind_apply, hr]⟩

theorem unexpected {wanted : Expectation} : Fails (Rule.unexpected wanted : Rule α) ts :=
  fun _ _ => ⟨_, _, rfl⟩

theorem fail {fault : GrammarFault} : Fails (Rule.fail fault : Rule α) ts :=
  fun _ _ => ⟨_, _, rfl⟩

theorem after (hr : Reads r us rest a) (hf : Fails (f a) rest) : Fails (r >>= f) (us ++ rest) := by
  intro c hc
  obtain ⟨c₁, h₁, hc₁⟩ := hr c hc
  obtain ⟨e, c₂, h₂⟩ := hf c₁ hc₁
  exact ⟨e, c₂, by rw [bind_apply, h₁]; exact h₂⟩

theorem peek {g : Token → Rule β} {t : Token} (ht : front ts = t) (h : Fails (g t) ts) :
    Fails (Rule.peek >>= g) ts := by
  intro c hc
  rw [bind_apply, Rule.peek, Cursor.token_eq, hc, ht]
  exact h c hc

theorem advance {g : Unit → Rule β} {t : Token} (h : Fails (g ()) ts) :
    Fails (Rule.advance >>= g) (t :: ts) :=
  fun c hc => h c.next (by rw [Cursor.tokens_next, hc, List.tail_cons])

theorem accept {g : Bool → Rule β} {t : Token} (h : Fails (g true) ts) :
    Fails (Rule.accept t >>= g) (t :: ts) := by
  intro c hc
  rw [bind_apply, Rule.accept, if_pos (Cursor.token_of_tokens hc)]
  exact h c.next (by rw [Cursor.tokens_next, hc, List.tail_cons])

theorem skip {g : Bool → Rule β} {t : Token} (ht : front ts ≠ t) (h : Fails (g false) ts) :
    Fails (Rule.accept t >>= g) ts := by
  intro c hc
  rw [bind_apply, Rule.accept, if_neg (by rwa [Cursor.token_eq, hc])]
  exact h c hc

theorem keyword {g : Unit → Rule β} {k : Keyword} (h : Fails (g ()) ts) :
    Fails (Rule.keyword k >>= g) (.keyword k :: ts) := by
  have hk : Reads (Rule.keyword k) [.keyword k] ts () := .accept .pure
  exact after hk h

theorem symbol {g : Unit → Rule β} {s : Symbol} (h : Fails (g ()) ts) :
    Fails (Rule.symbol s >>= g) (.symbol s :: ts) := by
  have hs : Reads (Rule.symbol s) [.symbol s] ts () := .accept .pure
  exact after hs h

theorem name {g : String → Rule β} {s : String} (h : Fails (g s) ts) :
    Fails (Rule.name >>= g) (.name s :: ts) :=
  after Reads.name h

end Fails

/-- A row of items is read up to the item that fails. -/
theorem Further.fails {item : Rule α} {P : List Token → α → Prop} {separator : Token}
    {as : List α} {F : Token → Prop} (h : Further separator P us as)
    (hitem : ∀ vs a, vs.length ≤ us.length → P vs a → ∀ rest, F (front rest) →
      Reads item vs rest a)
    (hsep : F separator) (hts : Fails item ts) :
    Fails (further separator item) (us ++ separator :: ts) := by
  have hlimit : ∀ limit, us.length < limit →
      Fails (furtherUpTo separator item limit) (us ++ separator :: ts) := by
    induction h with
    | nil =>
      intro limit hlt
      obtain ⟨limit, rfl⟩ := Nat.exists_eq_succ_of_ne_zero (Nat.ne_of_gt hlt)
      exact .accept hts.bind
    | @cons us vs a as hus hvs ih =>
      intro limit hlt
      rw [List.length_cons, List.length_append] at hlt hitem
      obtain ⟨limit, rfl⟩ := Nat.exists_eq_succ_of_ne_zero (show limit ≠ 0 by omega)
      have hnext : F (front (vs ++ separator :: ts)) := hvs.front_append hsep hsep
      have hfirst := hitem us a (by omega) hus _ hnext
      have hothers := ih (fun ws b hws => hitem ws b (by omega)) limit (by omega)
      rw [List.cons_append, List.append_assoc]
      exact .accept (.after hfirst hothers.bind)
  intro c hc
  refine hlimit _ ?_ c hc
  have := congrArg List.length hc
  rw [Cursor.tokens, List.length_map, List.length_append] at this
  omega

end Fails

def EndsPart (t : Token) : Prop :=
  t = .keyword .and ∨ t = .keyword .or ∨ t = .symbol .rightParen ∨ t = .eof

theorem endsPart_token (o : Connective) : EndsPart o.token := by
  cases o with
  | and => exact .inl rfl
  | or => exact .inr (.inl rfl)

/-- No part of a condition is at the front of some tokens. -/
def Stuck (ts : List Token) : Prop :=
  ∀ depth, 3 * ts.length + 1 ≤ depth → Fails (unary depth) ts

/-- A row of items breaks off: the first item or one after a separator is not there. -/
def BreaksOff (separator : Token) (f : Condition → Condition → Condition)
    (P : List Token → Condition → Prop) (B : List Token → Prop) (ts : List Token) : Prop :=
  B ts ∨ ∃ us vs c, ts = us ++ separator :: vs ∧ IsRow separator f P us c ∧ B vs

abbrev ConjunctionBreaksOff : List Token → Prop :=
  BreaksOff (.keyword .and) .and (Produces .unary) Stuck

abbrev DisjunctionBreaksOff : List Token → Prop :=
  BreaksOff (.keyword .or) .or (IsConjunction (Produces .unary)) ConjunctionBreaksOff

section Refuses

variable {ts us : List Token} {c d : Condition} {depth : Nat}

theorem stuck_of_endsPart (h : EndsPart (front ts)) : Stuck ts := by
  intro depth hdepth
  obtain ⟨depth, rfl⟩ := Nat.exists_eq_succ_of_ne_zero (show depth ≠ 0 by omega)
  rcases h with h | h | h | h <;>
    exact .skip (by rw [h]; nofun) (.skip (by rw [h]; nofun) (.bind (.peek h .unexpected)))

theorem Stuck.not (h : Stuck ts) : Stuck (.keyword .not :: ts) := by
  intro depth hdepth
  rw [List.length_cons] at hdepth
  obtain ⟨depth, rfl⟩ := Nat.exists_eq_succ_of_ne_zero (show depth ≠ 0 by omega)
  exact .accept (.bind (h depth (by omega)))

theorem reads_unary_of_produces (h : Produces .unary us c) : ReadsUnary us c :=
  complete h

theorem fails_conjunction (h : ConjunctionBreaksOff ts) (hdepth : 3 * ts.length + 2 ≤ depth) :
    Fails (conjunction depth) ts := by
  obtain ⟨depth, rfl⟩ := Nat.exists_eq_succ_of_ne_zero (show depth ≠ 0 by omega)
  rcases h with h | ⟨_, vs, _, rfl, ⟨us, ws, d, ds, rfl, hd, hds, rfl⟩, h⟩
  · exact .bind (h depth (by omega))
  · simp only [List.length_append, List.length_cons] at hdepth
    rw [List.append_assoc]
    refine .after ((reads_unary_of_produces hd).2 depth _ (by omega)) (.bind ?_)
    exact hds.fails (F := fun _ => True)
      (fun xs a hlen ha rest _ => (reads_unary_of_produces ha).2 depth rest (by omega)) trivial
      (h depth (by omega))

theorem fails_disjunction (h : DisjunctionBreaksOff ts) (hdepth : 3 * ts.length + 3 ≤ depth) :
    Fails (disjunction depth) ts := by
  obtain ⟨depth, rfl⟩ := Nat.exists_eq_succ_of_ne_zero (show depth ≠ 0 by omega)
  have hreads : ∀ {xs a}, IsConjunction (Produces .unary) xs a → IsConjunction ReadsUnary xs a :=
    fun ha => ha.mono fun _ _ => reads_unary_of_produces
  rcases h with h | ⟨_, vs, _, rfl, ⟨us, ws, d, ds, rfl, hd, hds, rfl⟩, h⟩
  · exact .bind (fails_conjunction h (by omega))
  · simp only [List.length_append, List.length_cons] at hdepth
    rw [List.append_assoc]
    have hws : front (ws ++ .keyword .or :: vs) ≠ .keyword .and :=
      hds.front_append (F := (· ≠ .keyword .and)) nofun nofun
    refine .after (reads_conjunction (hreads hd) (by omega) hws) (.bind ?_)
    exact hds.fails (F := (· ≠ .keyword .and))
      (fun xs a hlen ha rest hrest => reads_conjunction (hreads ha) (by omega) hrest) nofun
      (fails_conjunction h (by omega))

theorem Stuck.parens (h : DisjunctionBreaksOff ts) : Stuck (.symbol .leftParen :: ts) := by
  intro depth hdepth
  rw [List.length_cons] at hdepth
  obtain ⟨depth, rfl⟩ := Nat.exists_eq_succ_of_ne_zero (show depth ≠ 0 by omega)
  exact .skip nofun (.accept (.bind (fails_disjunction h (by omega))))

end Refuses

section Renderings

variable {site : Site} {o : Connective} {ts us : List Token} {c d : Condition}
  {cs : List Condition}

def Refuses : Site → List Token → Prop
  | .free => DisjunctionBreaksOff
  | .conjunct => ConjunctionBreaksOff
  | .negated => Stuck

theorem Refuses.of_stuck (h : Stuck ts) : Refuses site ts := by
  cases site with
  | free => exact .inl (.inl h)
  | conjunct => exact .inl h
  | negated => exact h

theorem Refuses.of_part (hsite : site.needs (o.ofParts cs) = false) (h : Refuses o.site ts) :
    Refuses site ts := by
  cases o with
  | and =>
    cases site with
    | free => exact .inl h
    | conjunct => exact h
    | negated => cases hsite
  | or =>
    cases site with
    | free => exact h
    | conjunct | negated => cases hsite

theorem BreaksOff.after {separator : Token} {f : Condition → Condition → Condition}
    [Std.Associative f] {P : List Token → Condition → Prop} {B : List Token → Prop}
    (hd : IsRow separator f P us d) (h : BreaksOff separator f P B ts) :
    BreaksOff separator f P B (us ++ separator :: ts) := by
  rcases h with h | ⟨vs, ws, c, rfl, hc, h⟩
  · exact .inr ⟨us, ts, d, rfl, hd, h⟩
  · refine .inr ⟨us ++ separator :: vs, ws, f d c, ?_, hd.append hc, h⟩
    rw [List.append_assoc]
    rfl

theorem Refuses.after (hd : Phrase o.site us d) (h : Refuses o.site ts) :
    Refuses o.site (us ++ o.token :: ts) := by
  cases o with
  | and =>
    have hconjunction : ConjunctionBreaksOff (us ++ .keyword .and :: ts) := BreaksOff.after hd h
    exact hconjunction
  | or =>
    have hdisjunction : DisjunctionBreaksOff (us ++ .keyword .or :: ts) := BreaksOff.after hd h
    exact hdisjunction

theorem Phrase.append (hd : Phrase o.site us d) (hc : Phrase o.site ts c) :
    ∃ e, Phrase o.site (us ++ o.token :: ts) e := by
  cases o with
  | and =>
    have h : IsConjunction (Produces .unary) (us ++ .keyword .and :: ts) (d.and c) :=
      IsRow.append hd hc
    exact ⟨_, h⟩
  | or =>
    have h : IsDisjunction (Produces .unary) (us ++ .keyword .or :: ts) (d.or c) :=
      IsRow.append hd hc
    exact ⟨_, h⟩

theorem Renders.front_parts {rest : List Token} (h : Renders (.parts o cs) ts)
    (hrest : EndsPart (front rest)) : EndsPart (front (ts ++ rest)) := by
  cases h with
  | noParts => exact hrest
  | parts => exact endsPart_token o

/-- What is refused when a list of parts is empty, whatever comes after it. -/
def Misses : Piece → List Token → Prop
  | .condition site c, ts => c.hasParts = false → ∀ rest, EndsPart (front rest) →
    Refuses site (ts ++ rest)
  | .parts o cs, ts => cs.all hasParts = false → ∀ us d rest, Phrase o.site us d →
    EndsPart (front rest) → Refuses o.site (us ++ (ts ++ rest))

theorem Renders.exists_phrase (h : Renders (.condition site c) ts) (hc : c.hasParts = true) :
    ∃ d, Phrase site ts d := by
  obtain ⟨d, hd⟩ := exists_rebuild hc
  exact ⟨d, h.means d hd⟩

/-- A rendering of a condition with an empty list of parts is refused. -/
theorem Renders.misses {p : Piece} (h : Renders p ts) : Misses p ts := by
  induction h with
  | leaf predicate =>
    intro hc
    rw [hasParts_leaf (isLogical_of_produces predicate)] at hc
    cases hc
  | not _ ih => exact fun hc rest hrest => .of_stuck (.not (ih hc rest hrest))
  | parens _ ih =>
    intro hc rest hrest
    rw [List.cons_append, List.append_assoc]
    exact .of_stuck (.parens (ih hc _ (.inr (.inr (.inl rfl)))))
  | empty => exact fun _ rest hrest => .of_stuck (stuck_of_endsPart hrest)
  | @joined site o ts us c cs hsite first others ih₁ ih₂ =>
    intro hc rest hrest
    rw [List.append_assoc]
    refine .of_part hsite ?_
    rw [hasParts_ofParts] at hc
    cases hfirst : c.hasParts with
    | false => exact ih₁ hfirst _ (others.front_parts hrest)
    | true =>
      obtain ⟨d, hd⟩ := first.exists_phrase hfirst
      exact ih₂ (by simpa [hfirst] using hc) ts d rest hd hrest
  | noParts => nofun
  | @parts o ts us c cs part others ih₁ ih₂ =>
    intro hcs vs d rest hd hrest
    rw [List.cons_append, List.append_assoc]
    cases hpart : c.hasParts with
    | false => exact .after hd (ih₁ hpart _ (others.front_parts hrest))
    | true =>
      obtain ⟨e, he⟩ := part.exists_phrase hpart
      obtain ⟨e, he⟩ := hd.append he
      have h := ih₂ (by simpa [hpart] using hcs) _ e rest he hrest
      rwa [List.append_assoc] at h

theorem Renders.fails_filter (h : Renders (.condition .free c) ts) (hc : c.hasParts = false)
    {depth : Nat} (hdepth : 3 * ts.length + 4 ≤ depth) :
    Fails (filter depth) (.keyword .whereWord :: ts) := by
  obtain ⟨depth, rfl⟩ := Nat.exists_eq_succ_of_ne_zero (show depth ≠ 0 by omega)
  have hrefuses := h.misses hc [] (.inr (.inr (.inr rfl)))
  rw [List.append_nil] at hrefuses
  exact .accept (.bind (fails_disjunction hrefuses (by omega)))

end Renderings

end StoreQuery.Grammar

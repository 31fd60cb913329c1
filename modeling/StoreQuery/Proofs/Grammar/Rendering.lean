import StoreQuery.Proofs.Grammar.Derivation
import StoreQuery.Proofs.Query.Rebuild
import StoreQuery.Query.Text

/-! # Renderings of conditions

A condition is rendered by its leaves with `not`, `and` and `or` between them. A disjunction that is
a part of a conjunction, and a conjunction or disjunction after `not`, stands between parentheses;
parentheses may stand around any other part as well. A rendering stands for the condition built
anew.
-/

namespace StoreQuery

/-- Where a condition stands: by itself or in a disjunction, in a conjunction, or after `not`. -/
inductive Condition.Site where
  | free
  | conjunct
  | negated

/-- Whether a condition needs parentheses. -/
def Condition.Site.needs : Condition.Site → Condition → Bool
  | free, _ => false
  | conjunct, c => c.isDisjunction
  | negated, c => c.isJoined

def Connective.site : Connective → Condition.Site
  | and => .conjunct
  | or => .free

namespace Grammar

open Condition

/-- What is rendered: a condition, or the parts after the first one, a connective before each. -/
inductive Piece where
  | condition (site : Site) (c : Condition)
  | parts (o : Connective) (cs : List Condition)

inductive Renders : Piece → List Token → Prop where
  | leaf {site : Site} {field : String} {ts : List Token} {c : Condition}
      (predicate : Produces (.predicate field) ts c) :
      Renders (.condition site c) (.name field :: ts)
  | not {site : Site} {ts : List Token} {c : Condition}
      (part : Renders (.condition .negated c) ts) :
      Renders (.condition site (.not c)) (.keyword .not :: ts)
  | parens {site : Site} {ts : List Token} {c : Condition}
      (whole : Renders (.condition .free c) ts) :
      Renders (.condition site c) (.symbol .leftParen :: (ts ++ [.symbol .rightParen]))
  | empty {site : Site} {o : Connective} (h : site.needs (o.ofParts []) = false) :
      Renders (.condition site (o.ofParts [])) []
  | joined {site : Site} {o : Connective} {ts us : List Token} {c : Condition}
      {cs : List Condition} (h : site.needs (o.ofParts (c :: cs)) = false)
      (first : Renders (.condition o.site c) ts) (others : Renders (.parts o cs) us) :
      Renders (.condition site (o.ofParts (c :: cs))) (ts ++ us)
  | noParts {o : Connective} : Renders (.parts o []) []
  | parts {o : Connective} {ts us : List Token} {c : Condition} {cs : List Condition}
      (part : Renders (.condition o.site c) ts) (others : Renders (.parts o cs) us) :
      Renders (.parts o (c :: cs)) (o.token :: (ts ++ us))

/-- The phrases that may stand at a site. -/
def Phrase : Site → List Token → Condition → Prop
  | .free => IsDisjunction (Produces .unary)
  | .conjunct => IsConjunction (Produces .unary)
  | .negated => Produces .unary

variable {site : Site} {o : Connective} {ts us : List Token} {c d : Condition}

theorem Phrase.of_unary (h : Produces .unary ts c) : Phrase site ts c := by
  cases site with
  | free => exact .single (.single h)
  | conjunct => exact .single h
  | negated => exact h

theorem Phrase.join {cs ds : List Condition} (hsite : site.needs (o.ofParts cs) = false)
    (hd : Phrase o.site ts d) (hds : Further o.token (Phrase o.site) us ds) :
    Phrase site (ts ++ us) (ds.foldl o.join d) := by
  cases o with
  | and =>
    have h : IsConjunction (Produces .unary) (ts ++ us) (ds.foldl .and d) :=
      IsRow.append_further hd hds
    cases site with
    | free => exact .single h
    | conjunct => exact h
    | negated => cases hsite
  | or =>
    have h : IsDisjunction (Produces .unary) (ts ++ us) (ds.foldl .or d) :=
      IsRow.append_further hd hds
    cases site with
    | free => exact h
    | conjunct | negated => cases hsite

/-- What a rendering stands for. -/
def Means : Piece → List Token → Prop
  | .condition site c, ts => ∀ d, c.rebuild = .ok d → Phrase site ts d
  | .parts o cs, ts => ∀ ds, cs.mapM rebuild = .ok ds → Further o.token (Phrase o.site) ts ds

theorem isLogical_of_produces {field : String} (h : Produces (.predicate field) ts c) :
    c.isLogical = false := by
  cases h <;> rfl

/-- A rendering stands for the condition built anew. -/
theorem Renders.means {p : Piece} (h : Renders p ts) : Means p ts := by
  induction h with
  | leaf predicate =>
    intro d hd
    rw [rebuild_leaf (isLogical_of_produces predicate)] at hd
    cases hd
    exact .of_unary (.test predicate)
  | not _ ih =>
    intro d hd
    obtain ⟨e, he, rfl⟩ := rebuild_not.1 hd
    exact .of_unary (.not (ih e he))
  | parens _ ih => exact fun d hd => .of_unary (.parens (IsDisjunction.produces (ih d hd)))
  | empty =>
    intro d hd
    obtain ⟨e, es, hes, -⟩ := rebuild_ofParts.1 hd
    cases hes
  | joined hsite _ _ ih₁ ih₂ =>
    intro d hd
    obtain ⟨e, es, hes, rfl⟩ := rebuild_ofParts.1 hd
    obtain ⟨_, _, he, hes, ⟨⟩⟩ := mapM_rebuild_cons.1 hes
    exact .join hsite (ih₁ e he) (ih₂ es hes)
  | noParts =>
    rintro _ ⟨⟩
    exact .nil
  | parts _ _ ih₁ ih₂ =>
    intro ds hds
    obtain ⟨e, es, he, hes, rfl⟩ := mapM_rebuild_cons.1 hds
    exact .cons (ih₁ e he) (ih₂ es hes)

theorem Renders.produces (h : Renders (.condition .free c) ts) (hd : c.rebuild = .ok d) :
    Produces .condition ts d :=
  IsDisjunction.produces (h.means d hd)

end Grammar

end StoreQuery

import StoreQuery.Proofs.Grammar.Passing
import StoreQuery.Proofs.Grammar.Soundness
import StoreQuery.Proofs.Query.Binding

/-! # The parameters of a text

What can be derived from tokens mentions exactly the parameters among them, in their order. So the
parameters that are noted while a text is read are those that its statement mentions.
-/

namespace StoreQuery

namespace Condition

theorem mentions_join {c : Condition} {cs : List (Connective × Condition)} :
    (join c cs).mentions = c.mentions ++ cs.flatMap fun d => d.2.mentions :=
  collect_join (fun _ => mentionsOfItems_eq) (fun _ => mentionsOfItems_eq) c cs

end Condition

namespace Grammar

/-- The parameters among some tokens, as often as they stand there. -/
def parametersOf (ts : List Token) : List String :=
  ts.filterMap Token.parameter?

@[simp] theorem parametersOf_nil : parametersOf [] = [] := rfl

@[simp] theorem parametersOf_append {ts us : List Token} :
    parametersOf (ts ++ us) = parametersOf ts ++ parametersOf us :=
  List.filterMap_append

@[simp] theorem parametersOf_cons {t : Token} {ts : List Token} :
    parametersOf (t :: ts) = t.parameter?.toList ++ parametersOf ts := by
  cases h : t.parameter? <;> simp [parametersOf, h]

/-- The parameters that the result of a nonterminal mentions, as often as it does. -/
def Nonterminal.mentions : (n : Nonterminal) → n.Result → List String
  | .value, v | .choices, v => v.mentions
  | .predicate _, c | .unary, c | .condition, c | .assignment, c => c.mentions
  | .links, cs => cs.flatMap fun c => c.2.mentions
  | .filter, c => Condition.mentionsOfClause c
  | .select, s => s.mentions
  | .keys, ks => Operand.mentionsOfItems ks
  | .payload, p => p.mentions
  | .body, s | .statement, s => s.mentions
  | .more n, as => as.flatMap n.mentions
  | .number, _ | .count, _ | .name, _ | .member, _ | .object, _ | .array, _ | .document, _ => []
  | .fields, _ | .sortKey, _ | .ordering, _ | .paging, _ | .lifetime, _ => []

theorem parameter?_token (o : Connective) : o.token.parameter? = none := by
  cases o <;> rfl

theorem parametersOf_into (into : Bool) :
    parametersOf (if into then [.keyword .into] else []) = [] := by
  cases into <;> rfl

/-- What is derived from tokens mentions the parameters among them, in their order. -/
theorem mentions_of_produces {n : Nonterminal} {ts : List Token} {a : n.Result}
    (h : Produces n ts a) : parametersOf ts = n.mentions a := by
  induction h with
  | integer | float | minusInteger | minusFloat | count | name | moreNil | emptyObject | emptyArray
  | documentText | documentTrue | documentFalse | documentNull | valueText | valueTrue | valueFalse
  | valueNull | valueParameter | linksNil | noFilter | noFields | star | sortKey | ascending
  | descending | noOrdering | noPaging | payloadParameter => rfl
  | documentNumber _ ih | documentObject _ ih | documentArray _ ih | valueNumber _ ih
  | valueObject _ ih | valueArray _ ih | choicesSingle _ _ ih | payloadObject _ ih
  | payloadArray _ ih | bodySelect _ ih | statement _ ih => exact ih
  | member _ ih | skip _ ih | limit _ ih | valueSelect _ ih | within _ ih | not _ ih | parens _ ih
  | test _ ih | filter _ ih | lastKey _ ih | assignment _ ih | lifetime _ _ _ ih | update _ ih
  | get _ ih | del _ ih | terminated _ ih =>
    simp [ih, Nonterminal.mentions, Token.parameter?, Operand.mentions, Operand.mentionsOfItems,
      Condition.mentions, Condition.mentionsOfClause, Statement.mentions]
  | object _ _ ih ihs | array _ _ ih ihs | moreCons _ _ ih ihs | ordering _ _ ih ihs
  | skipLimit _ _ ih ihs | limitSkip _ _ ih ihs | delete _ _ ih ihs | put _ _ ih ihs
  | between _ _ ih ihs | key _ _ ih ihs | commaKey _ _ ih ihs =>
    simp [ih, ihs, Nonterminal.mentions, Token.parameter?, Operand.mentionsOfItems,
      Condition.mentions, Statement.mentions]
  | valueList _ _ ih ihs | choicesList _ _ ih ihs =>
    simp [ih, ihs, Nonterminal.mentions, Token.parameter?, Operand.mentions,
      Operand.mentionsOfItems_eq]
  | assignments _ _ ih ihs =>
    simp [ih, ihs, Nonterminal.mentions, Token.parameter?, Payload.mentions,
      Condition.mentionsOfItems_eq]
  | fields _ ih => simp [ih, Nonterminal.mentions, Token.parameter?]
  | compare h _ ih =>
    rw [parametersOf_cons, (Token.isPlain_iff.1 (isPlain_of_comparison? h)).1, ih]
    rfl
  | @linksCons o _ _ c cs _ _ ih ihs =>
    rw [parametersOf_cons, parameter?_token, parametersOf_append, ih, ihs]
    rfl
  | condition _ _ ih ihs =>
    rw [parametersOf_append, ih, ihs]
    exact Condition.mentions_join.symm
  | select _ _ _ _ ihp iht ihu ihv =>
    simp [ihp, iht, ihu, ihv, Nonterminal.mentions, Token.parameter?, Select.mentions]
  | insert _ ih =>
    simp [ih, parametersOf_into, Nonterminal.mentions, Token.parameter?, Statement.mentions]
  | insertFor _ _ ih ihs =>
    simp [ih, ihs, parametersOf_into, Nonterminal.mentions, Token.parameter?, Statement.mentions]
  | putFor _ _ _ ih ihs iht =>
    simp [ih, ihs, iht, Nonterminal.mentions, Token.parameter?, Statement.mentions]

theorem mentioned_of_statement {depth : Nat} {ls : List Lexeme} {s : Statement} {c : Cursor}
    (h : statement depth (.start ls) = .done s c) : c.mentioned = s.mentions := by
  obtain ⟨ts, hts, hs⟩ := yields_statement _ _ _ _ h
  have hleads : (Cursor.start ls).Leads c :=
    (notes_statement _ _).leads c (by rw [h, Reply.cursor?])
  obtain ⟨passed, hrest, hmentioned, _⟩ := hleads.exists_passed
  have htokens : ts ++ c.tokens = passed.map Lexeme.token ++ c.tokens := by
    rw [← hts, Cursor.tokens, hrest, List.map_append]
    rfl
  have hparameters : parametersOf ts = passed.filterMap fun l => l.token.parameter? := by
    rw [List.append_cancel_right htokens, parametersOf, List.filterMap_map]
    rfl
  rw [hmentioned, ← hparameters]
  exact mentions_of_produces hs

theorem parameters_parseStatement {text : String} {s : Statement}
    (h : (parseStatement text).result = .ok s) :
    (parseStatement text).parameters = s.parameters := by
  unfold parseStatement Rule.run at *
  dsimp only at *
  split at h
  · next hdone =>
    cases h
    exact congrArg distinct (mentioned_of_statement hdone)
  · cases h
  · cases h

end Grammar

end StoreQuery

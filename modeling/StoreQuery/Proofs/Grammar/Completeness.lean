import StoreQuery.Proofs.Grammar.Completeness.Statements
import StoreQuery.Proofs.Token.Stream

/-! # What can be derived is read

The tokens of a derivation are read by the rule of its nonterminal, one constructor of the
derivation after the other.
-/

namespace StoreQuery.Grammar

theorem complete {n : Nonterminal} {ts : List Token} {a : n.Result} (h : Produces n ts a) :
    Complete n ts a := by
  induction h with
  | integer => exact reads_integer
  | float => exact reads_float
  | minusInteger h => exact reads_minusInteger h
  | minusFloat => exact reads_minusFloat
  | count h => exact reads_count h
  | name => exact fun _ => .name
  | moreNil => exact .nil
  | moreCons _ _ ih₁ ih₂ => exact .cons ih₁ ih₂
  | member _ ih => exact ⟨_, rfl, ih⟩
  | emptyObject => exact reads_emptyObject
  | object _ _ ih₁ ih₂ => exact reads_object ih₁ ih₂
  | emptyArray => exact ⟨_, rfl, fun _ _ _ => .accept .pure⟩
  | array first _ ih₁ ih₂ => exact reads_array (front_document first) ih₁ ih₂
  | @documentText s =>
    exact reads_document fun _ _ _ => .peek (t := .text s) rfl (.advance .pure)
  | documentNumber _ ih => exact reads_document fun depth rest _ => ih.2 depth rest
  | documentTrue =>
    exact reads_document fun _ _ _ => .peek (t := .keyword .true) rfl (.advance .pure)
  | documentFalse =>
    exact reads_document fun _ _ _ => .peek (t := .keyword .false) rfl (.advance .pure)
  | documentNull =>
    exact reads_document fun _ _ _ => .peek (t := .keyword .null) rfl (.advance .pure)
  | documentObject _ ih => exact reads_documentObject ih
  | documentArray _ ih => exact reads_documentArray ih
  | @valueText s =>
    exact reads_value nofun fun _ _ _ => .peek (t := .text s) rfl (.advance .pure)
  | valueNumber number ih =>
    refine reads_value ?_ fun depth rest _ => ih.1 depth rest
    cases number <;> nofun
  | valueTrue =>
    exact reads_value nofun fun _ _ _ => .peek (t := .keyword .true) rfl (.advance .pure)
  | valueFalse =>
    exact reads_value nofun fun _ _ _ => .peek (t := .keyword .false) rfl (.advance .pure)
  | valueNull =>
    exact reads_value nofun fun _ _ _ => .peek (t := .keyword .null) rfl (.advance .pure)
  | valueParameter => exact reads_valueParameter
  | valueObject _ ih => exact reads_valueObject ih
  | valueArray _ ih => exact reads_valueArray ih
  | valueList first _ ih₁ ih₂ => exact reads_valueList (front_value first) ih₁ ih₂
  | valueSelect select ih =>
    refine reads_valueSelect ?_ ih
    cases select
    rfl
  | choicesSingle _ h ih => exact ⟨h, ih.2⟩
  | choicesList first _ ih₁ ih₂ => exact reads_choicesList (front_value first).1 ih₁ ih₂
  | compare h _ ih => exact reads_compare h ih
  | between _ _ ih₁ ih₂ => exact reads_between ih₁ ih₂
  | within _ ih => exact reads_within ih
  | not _ ih => exact reads_not ih
  | parens _ ih => exact reads_parens ih
  | test _ ih => exact reads_test ih
  | linksNil => exact .nil
  | linksCons _ _ ih₁ ih₂ => exact .cons ih₁ ih₂
  | condition _ _ ih₁ ih₂ => exact reads_condition ih₁ ih₂
  | noFilter => exact reads_noFilter
  | filter _ ih => exact reads_filter ih
  | noFields => exact reads_noFields
  | star => exact fun _ _ => .accept .pure
  | fields _ ih => exact reads_fields ih
  | sortKey => exact reads_sortKey
  | ascending => exact fun _ _ => .name_bind (.skip nofun (.accept .pure))
  | descending => exact fun _ _ => .name_bind (.accept .pure)
  | noOrdering => exact fun _ hrest => .skip hrest.1 .pure
  | ordering _ _ ih₁ ih₂ => exact reads_ordering ih₁ ih₂
  | noPaging => exact reads_noPaging
  | skip _ ih => exact reads_skip ih
  | limit _ ih => exact reads_limit ih
  | skipLimit _ _ ih₁ ih₂ => exact reads_skipLimit ih₁ ih₂
  | limitSkip _ _ ih₁ ih₂ => exact reads_limitSkip ih₁ ih₂
  | select _ _ ordering paging ih₁ ih₂ ih₃ ih₄ =>
    exact reads_select ih₁ ih₂ ih₃ ih₄ (front_ordering ordering) (front_paging paging)
  | lastKey value ih => exact reads_lastKey (front_value value).1 ih
  | key value others ih₁ ih₂ =>
    exact reads_key (front_value value).1 ih₁ (fun _ => front_keys others) ih₂
  | commaKey value _ ih₁ ih₂ => exact reads_commaKey (front_value value).1 ih₁ ih₂
  | assignment _ ih => exact reads_assignment ih
  | assignments _ _ ih₁ ih₂ => exact reads_assignments ih₁ ih₂
  | payloadObject _ ih => exact fun _ _ hdepth _ => reads_payloadObject ih hdepth
  | payloadArray _ ih => exact fun _ _ hdepth _ => reads_payloadArray ih hdepth
  | payloadParameter => exact fun _ _ hdepth _ => reads_payloadParameter hdepth
  | lifetime _ hunit ht ih => exact reads_lifetime ih hunit ht
  | bodySelect select ih =>
    intro depth rest hdepth hrest
    cases select
    exact .peek (t := .keyword .select) rfl (.last (ih depth rest hdepth hrest.endsSelect) .pure)
  | insert _ ih => exact reads_insert ih
  | insertFor _ ttl ih₁ ih₂ =>
    refine reads_insertFor ih₁ (fun rest => ?_) ih₂
    cases ttl with
    | lifetime amount =>
      cases amount
      exact ⟨_, rfl⟩
  | update _ ih => exact reads_update ih
  | delete _ _ ih₁ ih₂ => exact reads_delete ih₁ ih₂
  | get _ ih => exact reads_get ih
  | del _ ih => exact reads_del ih
  | put _ _ ih₁ ih₂ => exact reads_put ih₁ ih₂
  | putFor _ _ _ ih₁ ih₂ ih₃ => exact reads_putFor ih₁ ih₂ ih₃
  | statement _ ih => exact reads_statement ih
  | terminated _ ih => exact reads_terminated ih

/-- A text whose tokens can be derived is read as the statement that they stand for. -/
theorem parseStatement_of_produces {text : String} {s : Statement}
    (h : Produces .statement (Lexeme.tokens text.toList) s) :
    (parseStatement text).result = .ok s := by
  have hstart : (Cursor.start (Lexeme.scan text)).tokens = Lexeme.tokens text.toList ++ [] := by
    rw [List.append_nil]
    exact Lexeme.map_token_scan text
  have hlen : (Lexeme.tokens text.toList).length = (Lexeme.scan text).length := by
    rw [← Lexeme.map_token_scan, List.length_map]
  obtain ⟨c, hc, -⟩ := complete h (nesting (Lexeme.scan text)) (by unfold nesting; omega) _ hstart
  unfold parseStatement Rule.run
  dsimp only
  rw [hc]

end StoreQuery.Grammar

import StoreQuery.Proofs.Grammar.Completeness
import StoreQuery.Proofs.Grammar.Soundness

/-! # The texts that are statements

A text is read as a statement exactly if the statement can be derived from its tokens. A single
value after `in` is not enough for that: the values of an `in` are a list.
-/

namespace StoreQuery.Grammar

theorem parseStatement_iff {text : String} {s : Statement} :
    (parseStatement text).result = .ok s ↔
      Produces .statement (Lexeme.tokens text.toList) s :=
  ⟨produces_of_parseStatement, parseStatement_of_produces⟩

/-- If any value could follow `in`, texts could be derived that are no statements. -/
theorem not_accepts_every_value :
    ¬∀ text : String, (∃ s, (parseStatement text).result = .ok s) ↔
      ∃ s, Derives (fun _ => True) .statement (Lexeme.tokens text.toList) s := by
  intro h
  have htokens : Lexeme.tokens "select * from T where a in 5".toList =
      [.keyword .select, .symbol .star, .keyword .fromWord, .name "T", .keyword .whereWord,
        .name "a", .keyword .inWord, .integer 5] := by
    decide +kernel
  obtain ⟨s, hs⟩ := (h "select * from T where a in 5").2 ⟨_, by
    rw [htokens]
    exact .statement (.bodySelect (.select .star (.filter (.condition (.test (.within
      (.choicesSingle (.valueNumber .integer) trivial))) .linksNil)) .noOrdering .noPaging))⟩
  have hfails : (parseStatement "select * from T where a in 5").result.isOk = false := by
    decide +kernel
  rw [hs] at hfails
  cases hfails

end StoreQuery.Grammar

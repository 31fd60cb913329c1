import StoreQuery.Proofs.Grammar.Data
import StoreQuery.Proofs.Grammar.Pieces

/-! # Numbers of texts are exact

A text that is accepted has no invalid token, so that its tokens have the marks that their
characters have, and these show the data of what is read. No number is another one than the text
says.
-/

namespace StoreQuery

open Text

namespace Grammar

variable {text : String} {ts : List Token} {s : Statement} {ss : List Statement}

theorem IsScript.isInvalid_eq_false (h : IsScript ts ss) : ∀ t ∈ ts, t.isInvalid = false := by
  induction h with
  | nil => nofun
  | semicolon _ ih => exact List.forall_mem_cons.2 ⟨rfl, ih⟩
  | statement hs _ _ ih =>
    have hinner := fun t ht => Token.isInvalid_of_isInner (hs.forall_isInner rfl t ht)
    exact List.forall_mem_append.2 ⟨hinner, ih⟩

theorem IsScript.shown (h : IsScript ts ss) :
    InTurn Datum.Shown (ss.flatMap Statement.data) (marksOf ts) := by
  induction h with
  | nil => exact .nil
  | semicolon _ ih => exact ih
  | statement hs _ _ ih =>
    rw [marksOf_append]
    exact InTurn.append (shows_of_produces hs) ih

theorem mark?_of_mem_scan {l : Lexeme} (hl : l ∈ Lexeme.scan text)
    (hvalid : l.token.isInvalid = false) : l.mark? text.toList = l.token.mark? := by
  unfold Lexeme.mark?
  split
  · next z hz =>
    have hdenotes := Lexeme.token_denotes hl hz
    generalize l.token = t at hdenotes hvalid
    cases hdenotes with
    | integer => rfl
    | invalid => cases hvalid
  · next hnone =>
    unfold Token.mark?
    split
    · next n hn =>
      rw [Lexeme.whole?_of_integer hl hn] at hnone
      cases hnone
    · rfl

theorem marks_of_isScript (h : IsScript (Lexeme.tokens text.toList) ss) :
    marks text = marksOf (Lexeme.tokens text.toList) := by
  rw [← Lexeme.map_token_scan] at h ⊢
  rw [marks, marksOf, List.filterMap_map]
  refine List.filterMap_congr fun l hl => ?_
  exact mark?_of_mem_scan hl (h.isInvalid_eq_false _ (List.mem_map_of_mem hl))

theorem exists_error_of_isInvalid {l : Lexeme} (hl : l ∈ Lexeme.scan text)
    (hinvalid : l.token.isInvalid = true) : ∃ e, (parseScript text).result = .error e := by
  cases h : (parseScript text).result with
  | error e => exact ⟨e, rfl⟩
  | ok ss =>
    have htokens := parseScript_iff.1 h
    rw [← Lexeme.map_token_scan] at htokens
    rw [htokens.isInvalid_eq_false _ (List.mem_map_of_mem hl)] at hinvalid
    cases hinvalid

theorem shown_of_parseScript (h : (parseScript text).result = .ok ss) :
    InTurn Datum.Shown (ss.flatMap Statement.data) (marks text) := by
  have hscript := parseScript_iff.1 h
  rw [marks_of_isScript hscript]
  exact hscript.shown

theorem parseScript_of_parseStatement (h : (parseStatement text).result = .ok s) :
    (parseScript text).result = .ok [s] :=
  parseScript_iff.2 (isScript_of_produces (produces_of_parseStatement h))

/-- Whether the numbers of a text are what they denote. Characters that denote an integer are the
token of this integer or, beyond the signed words, an invalid one; there is no other way to a token
of an integer. With an invalid token the text is refused. What the text is read as has the data that
the marks show, in their order. -/
structure ExactNumerals (text : String) : Prop where
  whole : ∀ l ∈ Lexeme.scan text, ∀ z, whole? (l.span.text text.toList) = some z →
    l.token.Denotes z
  integer : ∀ l ∈ Lexeme.scan text, ∀ n, l.token = .integer n →
    whole? (l.span.text text.toList) = some n.toInt
  refused : ∀ l ∈ Lexeme.scan text, l.token.isInvalid = true →
    (∃ e, (parseStatement text).result = .error e) ∧ ∃ e, (parseScript text).result = .error e
  statement : ∀ s, (parseStatement text).result = .ok s → InTurn Datum.Shown s.data (marks text)
  script : ∀ ss, (parseScript text).result = .ok ss →
    InTurn Datum.Shown (ss.flatMap Statement.data) (marks text)

theorem exactNumerals (text : String) : ExactNumerals text where
  whole _ hl _ := Lexeme.token_denotes hl
  integer _ hl _ := Lexeme.whole?_of_integer hl
  refused l hl hinvalid := by
    obtain ⟨e, he⟩ := exists_error_of_isInvalid hl hinvalid
    refine ⟨?_, e, he⟩
    cases h : (parseStatement text).result with
    | error e => exact ⟨e, rfl⟩
    | ok s =>
      rw [parseScript_of_parseStatement h] at he
      cases he
  statement s h := by
    have hshown := shown_of_parseScript (parseScript_of_parseStatement h)
    rwa [List.flatMap_singleton] at hshown
  script _ := shown_of_parseScript

/-- Numbers of texts are exact. Digits, with a minus before them or without, are one token: the
integer that they denote if a signed word holds it, and an invalid one otherwise. Texts with an
invalid token are refused. What is read from any other text has, in the places of the text, the
integers that the digits denote, or the opposite ones after a minus that stands apart, and finite
floating-point numbers; and only the word `null` is read as null in a document. -/
theorem numerals_exact :
    (∀ gap negative ds rest, IsLayout gap → IsDigits ds → Token.EndsWhole rest →
      ∃ t : Token, t.Denotes (wholeValue negative ds) ∧
        ((∃ n, t = .integer n) ↔ FitsWord (wholeValue negative ds)) ∧
        Lexeme.scan (String.ofList (gap ++ (signed negative ds ++ rest))) =
          ⟨t, width gap, width gap + width (signed negative ds)⟩ ::
            (Lexeme.scan (String.ofList rest)).map
              (Lexeme.shift (width gap + width (signed negative ds)))) ∧
    (∀ text, ExactNumerals text) ∧
    ∀ ms, Json.null.Shown ms → ms = [.leaf (.keyword .null)] := by
  refine ⟨fun gap negative ds rest hgap hds hrest => ?_, exactNumerals, fun ms => ?_⟩
  · have hdenotes := Token.denotes_ofDigits negative ds
    exact ⟨_, hdenotes, hdenotes.exists_integer_iff, Lexeme.scan_signed hgap hds negative hrest⟩
  · exact Json.eq_of_shown_null

/-- The least integer, a minus that stands apart, leading zeros, and an integer that is too large by
one. -/
theorem numerals_exact_bounds :
    let s : Statement := .get [.literal (.int .minValue), .literal (.int (-7))]
    let text := "get -9223372036854775808 - 007"
    (parseStatement text).result = .ok s ∧
      InTurn Datum.Shown s.data [.whole (-0x8000000000000000), .leaf (.symbol .minus), .whole 7] ∧
      ∃ e, (parseStatement "get 9223372036854775808").result = .error e := by
  intro s text
  obtain ⟨-, hexact, -⟩ := numerals_exact
  have htokens : Lexeme.tokens text.toList =
      [.keyword .get, .integer .minValue, .symbol .minus, .integer 7] := by
    decide +kernel
  have hparse : (parseStatement text).result = .ok s := by
    apply parseStatement_of_produces
    rw [htokens]
    exact .statement (.get (.key (.valueNumber .integer)
      (.lastKey (.valueNumber (.minusInteger (by decide))))))
  have hmarks : marks text =
      [.whole (-0x8000000000000000), .leaf (.symbol .minus), .whole 7] := by
    decide +kernel
  refine ⟨hparse, hmarks ▸ (hexact text).statement s hparse, ?_⟩
  have hlexeme : ⟨.invalid .integerTooLarge, 4, 23⟩ ∈ Lexeme.scan "get 9223372036854775808" := by
    decide +kernel
  exact ((hexact _).refused _ hlexeme rfl).1

end Grammar

end StoreQuery

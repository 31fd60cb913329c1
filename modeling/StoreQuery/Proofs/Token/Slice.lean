import StoreQuery.Proofs.Token.Slice.Plain
import StoreQuery.Proofs.Token.Slice.Quoted

/-! # A token and the characters that it takes

Where a token ends may depend on what follows it: a name goes on while parts of names come. But the
characters that were taken are enough to read the token again, at the end of a text and in front of
whatever ends a token in the same way. The one exception is a literal that breaks off after the
first half of a surrogate pair.
-/

namespace StoreQuery

open Text

namespace Token

section Read

variable {c : Char} {cs : List Char}

theorem readsAgain_readSymbol : ReadsAgain (readSymbol c) cs := by
  unfold ReadsAgain readSymbol
  split
  case h_13 | h_14 =>
    split
    · exact ⟨['='], rfl, fun _ _ => rfl⟩
    · next hne =>
      refine ⟨[], rfl, fun rest hrest => ?_⟩
      rw [List.nil_append]
      split
      · obtain ⟨ds, hds, -⟩ := EndsLike.exists_mark (by decide) hrest
        exact absurd hds (hne ds)
      · rfl
  all_goals exact ⟨[], rfl, fun _ _ => rfl⟩

def ofText : Except LexicalFault (List Char) → Token
  | .ok s => text (String.ofList s)
  | .error fault => invalid fault

theorem read_of_quote (h : c = '"' ∨ c = '\'') (cs : List Char) :
    read c cs = (ofText (readText c cs).1, (readText c cs).2) := by
  rw [read, if_pos h]
  split <;> rename_i heq <;> rw [heq] <;> rfl

/-- The token of a name between backticks, and what follows it. -/
def ofQuotedName : Option (List Char × List Char) → Token × List Char
  | some ([], rest) => (invalid .emptyName, rest)
  | some (s, rest) => (name (String.ofList s), rest)
  | none => (invalid .openName, [])

theorem ofQuotedName_some (n rest : List Char) :
    ofQuotedName (some (n, rest)) = ((ofQuotedName (some (n, []))).1, rest) := by
  cases n <;> rfl

theorem readsAgain_read_quotedName : ReadsAgain (read '\x60') cs := by
  have hread : ∀ ds, read '\x60' ds = ofQuotedName (readQuotedName ds) := by
    intro ds
    rw [read, if_neg (by decide), if_pos rfl]
    rfl
  rw [ReadsAgain, hread]
  cases h : readQuotedName cs with
  | none =>
    refine ⟨cs, (List.append_nil cs).symm, fun rest hrest => ?_⟩
    rw [EndsLike.eq_nil hrest, List.append_nil, hread, h]
    rfl
  | some p =>
    obtain ⟨n, rest⟩ := p
    obtain ⟨slice, hcs, hend, hslice⟩ := readQuotedName_slice h
    rw [ofQuotedName_some]
    refine ⟨slice, hcs, fun rest' hrest' => ?_⟩
    rw [hread, hslice rest' (hrest'.head (.mark (by decide)) hend), ofQuotedName_some]

theorem readsAgain_read_parameter : ReadsAgain (read '@') cs := by
  have hread : ∀ ds, read '@' ds =
      if startsName ds then (parameter (String.ofList (readName ds).1), (readName ds).2)
      else (invalid .noParameterName, ds) := by
    intro ds
    rw [read, if_neg (by decide), if_neg (by decide), if_pos rfl]
  cases hstart : startsName cs with
  | false =>
    have hnone : ∀ {ds}, startsName ds = false → read '@' ds = (invalid .noParameterName, ds) := by
      intro ds hds
      rw [hread, hds]
      rfl
    exact .nil (hnone hstart) fun rest hrest => hnone (hrest.startsName hstart)
  | true =>
    have hname : ∀ {ds}, startsName ds = true →
        read '@' ds = (parameter (String.ofList (readName ds).1), (readName ds).2) := by
      intro ds hds
      rw [hread, if_pos hds]
    rw [ReadsAgain, hname hstart]
    refine ⟨(readName cs).1, (readName_eq_append cs).symm, fun rest hrest => ?_⟩
    rw [hname (startsName_readName_append hstart), hrest.readName_append]

theorem readNumber_length_lt {negative : Bool} (hc : c.isDigit = true) (cs : List Char) :
    (readNumber negative (c :: cs)).2.length ≤ cs.length := by
  have h := readNumber_length_le negative (c :: cs)
  rw [List.dropWhile_cons_of_pos hc] at h
  exact h.trans (Trivia.dropWhile_length_le Char.isDigit cs)

theorem readsAgain_read_minus : ReadsAgain (read '-') cs := by
  have hsymbol : ∀ {ds}, EndsDigits ds → read '-' ds = (symbol .minus, ds) := by
    intro ds hds
    have hdigit : ds.head?.any Char.isDigit = false := by
      rw [Option.any_eq_false]
      simpa [EndsDigits] using hds
    rw [read, if_neg (by decide), if_neg (by decide), if_neg (by decide), if_neg (by decide),
      if_neg (by simp [hdigit]), if_neg (by decide)]
    rfl
  have hnumber : ∀ {d ds}, d.isDigit = true → read '-' (d :: ds) = readNumber true (d :: ds) := by
    intro d ds hd
    rw [read, if_neg (by decide), if_neg (by decide), if_neg (by decide), if_neg (by decide),
      if_pos ⟨rfl, hd⟩]
  by_cases hcs : ∃ d ds, cs = d :: ds ∧ d.isDigit = true
  · obtain ⟨d, ds, rfl, hd⟩ := hcs
    have hagain : ReadsAgain (fun es => read '-' (d :: es)) ds :=
      ReadsAgain.of_cons readsAgain_readNumber (readNumber_length_lt hd ds) fun _ => hnumber hd
    exact hagain.cons fun _ => rfl
  · have hends : EndsDigits cs := by
      intro d hd
      obtain ⟨ds, rfl⟩ := List.head?_eq_some_iff.1 hd
      rw [Bool.eq_false_iff]
      exact fun hdigit => hcs ⟨d, ds, rfl, hdigit⟩
    exact .nil (hsymbol hends) fun rest hrest => hsymbol (hrest.endsDigits hends)

/-- Whether a token is a literal that breaks off after the first half of a surrogate pair. -/
def BreaksOff (slice : List Char) : Prop :=
  ∃ quote cs, (quote = '"' ∨ quote = '\'') ∧ slice = quote :: cs ∧ BreaksPair quote cs

theorem readsAgain_read (hquote : ¬(c = '"' ∨ c = '\'')) : ReadsAgain (read c) cs := by
  by_cases hname : c = '\x60'
  · rw [hname]
    exact readsAgain_read_quotedName
  by_cases hparameter : c = '@'
  · rw [hparameter]
    exact readsAgain_read_parameter
  by_cases hminus : c = '-'
  · rw [hminus]
    exact readsAgain_read_minus
  by_cases hdigit : c.isDigit = true
  · apply ReadsAgain.of_cons readsAgain_readNumber (readNumber_length_lt hdigit cs)
    intro ds
    rw [read, if_neg hquote, if_neg hname, if_neg hparameter, if_pos hdigit]
  by_cases hstart : Name.isStart c = true
  · have hpart : (Name.isPart c || (c == '.' && startsName cs)) = true := by
      rw [Name.isPart_of_isStart hstart, Bool.true_or]
    have hagain : ReadsAgain (fun ds => readName (c :: ds)) cs :=
      ReadsAgain.of_cons readsAgain_readName
        (by rw [readName, if_pos hpart]; exact readName_length_le cs) fun _ => rfl
    exact hagain.map ofWord (read_of_isStart hstart)
  · apply readsAgain_readSymbol.map id
    intro ds
    rw [read, if_neg hquote, if_neg hname, if_neg hparameter, if_neg hdigit,
      if_neg (fun h => hminus h.1), if_neg hstart]
    rfl

/-- A token reads again. If it breaks off after half a pair, no escape may follow that did not
follow before. -/
theorem read_slice (c : Char) (cs : List Char) :
    ∃ slice, cs = slice ++ (read c cs).2 ∧
      ∀ rest, EndsLike (read c cs).2 rest →
        (BreaksOff (c :: slice) → StartsEscape rest → StartsEscape (read c cs).2) →
        read c (slice ++ rest) = ((read c cs).1, rest) := by
  by_cases hquote : c = '"' ∨ c = '\''
  · obtain ⟨slice, hcs, hslice⟩ := @readText_slice c cs
    rw [read_of_quote hquote]
    refine ⟨slice, hcs, fun rest hrest hpair => ?_⟩
    rw [read_of_quote hquote,
      hslice rest hrest fun hbreaks => hpair ⟨c, slice, hquote, rfl, hbreaks⟩]
  · obtain ⟨slice, hcs, hslice⟩ := @readsAgain_read c cs hquote
    exact ⟨slice, hcs, fun rest hrest _ => hslice rest hrest⟩

end Read

end Token

end StoreQuery

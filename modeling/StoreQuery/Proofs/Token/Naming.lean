import StoreQuery.Proofs.Token.Layout
import StoreQuery.Proofs.Token.Writing

/-! # Names as tokens

A name that is not empty is written so that it is read as one token, the name itself, in front of
whatever does not go on with it. It stands without backticks exactly if its own characters are read
as the name.
-/

namespace StoreQuery

open Text

namespace Name

variable {n : String}

theorem render_of_isPlain (h : isPlain n = true) : render n = n :=
  if_pos h

theorem render_of_not_isPlain (h : isPlain n = false) : render n = quoted n := by
  rw [render, h]
  rfl

theorem length_lt_length_quoted (n : String) : n.toList.length < (quoted n).toList.length := by
  have hle : ∀ cs : List Char, cs.length ≤ (cs.flatMap escape).length := by
    intro cs
    induction cs with
    | nil => exact Nat.le_refl 0
    | cons c cs ih =>
      have hc : 1 ≤ (escape c).length := by
        unfold escape
        split <;> simp
      rw [List.flatMap_cons, List.length_append, List.length_cons]
      omega
  have hname := hle n.toList
  rw [quoted, String.toList_ofList, List.length_cons, List.length_append]
  omega

theorem render_eq_self_iff : render n = n ↔ isPlain n = true := by
  refine ⟨fun h => ?_, render_of_isPlain⟩
  cases hplain : isPlain n with
  | true => rfl
  | false =>
    have hlt := length_lt_length_quoted n
    rw [← render_of_not_isPlain hplain, h] at hlt
    exact absurd hlt (Nat.lt_irrefl _)

end Name

namespace Token

variable {n : String} {c : Char} {cs rest : List Char}

section Inversion

theorem length_readQuotedName {s : List Char} (h : readQuotedName cs = some (s, rest)) :
    s.length + rest.length < cs.length := by
  fun_induction readQuotedName cs generalizing s with
  | case1 => cases h
  | case2 cs ih | case4 c cs _ _ ih =>
    obtain ⟨⟨m, rest'⟩, hm, ⟨⟩⟩ := Option.map_eq_some_iff.1 h
    have := ih hm
    simp only [List.length_cons]
    omega
  | case3 cs =>
    cases h
    simp

/-- A name is a word that is no keyword, or it is shorter than what it stands in: it has no
backticks around it. -/
theorem read_eq_name (h : read c cs = (.name n, rest)) :
    (Name.isStart c = true ∧ Keyword.ofWord? n = none ∧ readName (c :: cs) = (n.toList, rest)) ∨
      n.toList.length < cs.length := by
  have hreads := reads_of_read h
  generalize hname : name n = t at hreads
  cases hreads with
  | quotedName hs hread =>
    cases hname
    have hlt := length_readQuotedName hread
    rw [String.toList_ofList]
    exact .inr (by omega)
  | word hstart =>
    unfold ofWord at hname
    split at hname
    · cases hname
    · next hnone =>
      cases hname
      rw [String.toList_ofList]
      exact .inl ⟨hstart, hnone, rfl⟩
  | number | negative =>
    have hnumeral := hname ▸ isNumeral_readNumber _ _
    cases hnumeral
  | symbol =>
    have hsymbol := hname ▸ isSymbol_readSymbol c cs
    cases hsymbol
  | _ => cases hname

end Inversion

theorem exists_read_render (hn : n ≠ "") : ∃ c cs, (Name.render n).toList = c :: cs ∧
    ∀ rest, stops rest = true → Trivia.drop (c :: (cs ++ rest)) = c :: (cs ++ rest) ∧
      read c (cs ++ rest) = (.name n, rest) := by
  cases hplain : Name.isPlain n with
  | true =>
    obtain ⟨c, cs, hcs, hc, hdotted, hword⟩ := Name.exists_of_isPlain hplain
    rw [Name.render_of_isPlain hplain]
    refine ⟨c, cs, hcs, fun rest hs => ⟨Trivia.drop_eq_self (Name.isBlank_of_isStart hc) ?_ ?_, ?_⟩⟩
    · exact fun h => absurd h (Name.ne_of_isStart hc (by decide))
    · exact fun h => absurd h (Name.ne_of_isStart hc (by decide))
    · rw [read_word hc hdotted hs, hword]
  | false =>
    rw [Name.render_of_not_isPlain hplain, Name.quoted, String.toList_ofList]
    refine ⟨_, _, rfl, fun rest hs => ⟨Trivia.drop_eq_self (by decide) ?_ ?_, ?_⟩⟩
    · exact fun h => absurd h (by decide)
    · exact fun h => absurd h (by decide)
    have hquote : rest.head? ≠ some '\x60' := by
      cases rest with
      | nil => decide
      | cons d rest =>
        simp only [stops, Bool.and_eq_true, bne_iff_ne] at hs
        simpa using hs.2
    rw [List.append_assoc, List.singleton_append,
      read_quotedName (fun h => hn (String.toList_eq_nil_iff.1 h)) hquote, String.ofList_toList]

end Token

namespace Lexeme

variable {n : String}

theorem scan_render (hn : n ≠ "") {rest : List Char} (hs : Token.stops rest = true) :
    scan (String.ofList ((Name.render n).toList ++ rest)) =
      ⟨.name n, 0, width (Name.render n).toList⟩ ::
        (scan (String.ofList rest)).map (shift (width (Name.render n).toList)) := by
  obtain ⟨c, cs, hcs, hread⟩ := Token.exists_read_render hn
  obtain ⟨hdrop, hread⟩ := hread rest hs
  rw [hcs]
  exact scan_of_read hdrop hread

/-- Only a plain name is read from its own characters. -/
theorem isPlain_of_tokens (h : tokens n.toList = [.name n]) : Name.isPlain n = true := by
  cases hdrop : Trivia.drop n.toList with
  | nil =>
    rw [tokens, scanFrom_of_drop_nil hdrop] at h
    cases h
  | cons c cs =>
    rw [tokens_of_drop_cons hdrop] at h
    obtain ⟨hname, -⟩ := List.cons.inj h
    rcases Token.read_eq_name (Prod.ext hname rfl) with ⟨hstart, hword, hread⟩ | hlt
    · have hdotted := (Token.isDotted_readName (c :: cs)).2 hstart
      rw [hread] at hdotted
      rw [Name.isPlain, hdotted, hword]
      rfl
    · have hle := Trivia.drop_length_le n.toList
      rw [hdrop, List.length_cons] at hle
      omega

/-- In front of whatever does not go on with a name, what is written for a name that is not empty is
one token, the name, and nothing more. A name is written as it is if and only if its own characters
are one token, the name. -/
theorem names_written (n : String) :
    (n ≠ "" → ∀ rest, Token.stops rest = true →
      scan (String.ofList ((Name.render n).toList ++ rest)) =
        ⟨.name n, 0, width (Name.render n).toList⟩ ::
          (scan (String.ofList rest)).map (shift (width (Name.render n).toList))) ∧
    (Name.render n = n ↔ (scan n).map Lexeme.token = [.name n]) ∧
    (Name.render n = n ↔ scan n = [⟨.name n, 0, width n.toList⟩]) := by
  have hscan : Name.render n = n → scan n = [⟨.name n, 0, width n.toList⟩] := by
    intro h
    have hn : n ≠ "" := by
      rintro rfl
      exact absurd h (by decide)
    have hstops : Token.stops [] = true := rfl
    have hwritten := scan_render hn hstops
    rw [h, List.append_nil, String.ofList_toList] at hwritten
    rw [hwritten, scan, String.toList_ofList, scanFrom_of_drop_nil Trivia.drop_nil, List.map_nil]
  have hplain : (scan n).map Lexeme.token = [.name n] → Name.render n = n := by
    intro h
    rw [map_token_scan] at h
    exact Name.render_eq_self_iff.2 (isPlain_of_tokens h)
  refine ⟨fun hn rest hs => scan_render hn hs, ⟨fun h => ?_, hplain⟩, hscan, fun h => hplain ?_⟩
  · rw [hscan h]
    rfl
  · rw [h]
    rfl

theorem names_written_quoted :
    "a`.1" ≠ "" ∧ Token.stops ", é".toList = true ∧
      scan "`a``.1`, é" = ⟨.name "a`.1", 0, 7⟩ :: (scan ", é").map (shift 7) ∧
      Name.render "Select" = "`Select`" ∧
      (scan "Select").map Lexeme.token ≠ [.name "Select"] := by
  have hstops : Token.stops ", é".toList = true := by decide
  have hquoted := (names_written "a`.1").1 (by decide) ", é".toList hstops
  have hrender : Name.render "a`.1" = "`a``.1`" := by decide +kernel
  have hkeyword : Name.render "Select" = "`Select`" := by decide +kernel
  rw [hrender, ← String.toList_append, String.ofList_toList] at hquoted
  refine ⟨by decide, hstops, hquoted, hkeyword, fun h => ?_⟩
  have hself := (names_written "Select").2.1.2 h
  rw [hkeyword] at hself
  exact absurd hself (by decide)

end Lexeme

end StoreQuery

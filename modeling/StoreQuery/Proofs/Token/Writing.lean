import StoreQuery.Proofs.Token.Stream

/-! # Text that writes tokens

Some characters write a row of tokens if these are the first tokens of every text that begins with
the characters and does not go on with a name or a number. Texts that write tokens are put together
from symbols, blanks, words, and parts before which a name ends.
-/

namespace StoreQuery

open Text

/-- The character of a symbol that is read by itself, whatever follows it. -/
def Symbol.mark? : Symbol → Option Char
  | leftParen => some '('
  | rightParen => some ')'
  | leftBrace => some '\x7b'
  | rightBrace => some '\x7d'
  | leftBracket => some '['
  | rightBracket => some ']'
  | comma => some ','
  | colon => some ':'
  | semicolon => some ';'
  | star => some '*'
  | equal => some '='
  | less | lessEqual | greater | greaterEqual | minus => none

/-- A name between backticks, a backtick of the name being doubled. -/
def Name.quoted (name : String) : String :=
  String.ofList ('\x60' :: (name.toList.flatMap Name.escape ++ ['\x60']))

theorem Name.exists_of_isPlain {n : String} (h : isPlain n = true) :
    ∃ c cs, n.toList = c :: cs ∧ isStart c = true ∧ isDotted false cs = true ∧
      Token.ofWord (c :: cs) = .name n := by
  simp only [isPlain, Bool.and_eq_true, Option.isNone_iff_eq_none] at h
  obtain ⟨hdotted, hword⟩ := h
  cases hcs : n.toList with
  | nil => simp [hcs, isDotted] at hdotted
  | cons c cs =>
    rw [hcs, isDotted, Bool.and_eq_true] at hdotted
    refine ⟨c, cs, rfl, hdotted.1, hdotted.2, ?_⟩
    rw [Token.ofWord, ← hcs, String.ofList_toList, hword]

namespace Token

theorem read_word {b : Bool} {c : Char} {cs rest : List Char} (hc : Name.isStart c = true)
    (hcs : Name.isDotted b cs = true) (hs : stops rest = true) :
    read c (cs ++ rest) = (ofWord (c :: cs), rest) := by
  rw [read_of_isStart hc, readName, if_pos (by rw [Name.isPart_of_isStart hc, Bool.true_or]),
    readName_append hcs (readName_of_stops hs)]

theorem read_quotedName {cs rest : List Char} (hne : cs ≠ []) (hs : rest.head? ≠ some '\x60') :
    read '\x60' (cs.flatMap Name.escape ++ '\x60' :: rest) = (.name (String.ofList cs), rest) := by
  rw [read, if_neg (by decide), if_pos rfl, readQuotedName_append cs hs]
  cases cs with
  | nil => exact absurd rfl hne
  | cons c cs => rfl

end Token

namespace Lexeme

theorem tokens_mark {s : Symbol} {c : Char} (h : s.mark? = some c) (cs : List Char) :
    tokens (c :: cs) = .symbol s :: tokens cs := by
  cases s <;> cases h <;>
    exact tokens_eq_read (by decide) (fun h => by simp at h) (fun h => by simp at h)

theorem tokens_word {b : Bool} {c : Char} {cs rest : List Char} (hc : Name.isStart c = true)
    (hcs : Name.isDotted b cs = true) (hs : Token.stops rest = true) :
    tokens (c :: cs ++ rest) = Token.ofWord (c :: cs) :: tokens rest := by
  rw [List.cons_append, tokens_eq_read (Name.isBlank_of_isStart hc), Token.read_word hc hcs hs]
  · exact fun h => absurd h (Name.ne_of_isStart hc (by decide))
  · exact fun h => absurd h (Name.ne_of_isStart hc (by decide))

theorem tokens_quotedName {cs rest : List Char} (hne : cs ≠ [])
    (hs : rest.head? ≠ some '\x60') :
    tokens ('\x60' :: (cs.flatMap Name.escape ++ '\x60' :: rest)) =
      .name (String.ofList cs) :: tokens rest := by
  rw [tokens_eq_read (by decide) (fun h => by simp at h) (fun h => by simp at h),
    Token.read_quotedName hne hs]

theorem tokens_parameter {cs rest : List Char} (hcs : Name.isDotted true cs = true)
    (hs : Token.stops rest = true) :
    tokens ('@' :: (cs ++ rest)) = .parameter (String.ofList cs) :: tokens rest := by
  have hstart : Token.startsName (cs ++ rest) = true := by
    cases cs with
    | nil => simp [Name.isDotted] at hcs
    | cons c cs =>
      simp only [Name.isDotted, Bool.and_eq_true] at hcs
      exact hcs.1
  have hread : Token.read '@' (cs ++ rest) = (.parameter (String.ofList cs), rest) := by
    rw [Token.read, if_neg (by decide), if_neg (by decide), if_pos rfl, if_pos hstart,
      Token.readName_append hcs (Token.readName_of_stops hs)]
  rw [tokens_eq_read (by decide) (fun h => by simp at h) (fun h => by simp at h), hread]

end Lexeme

open Lexeme

/-- Some characters write some tokens, wherever a name or a number may end. -/
def Writes (cs : List Char) (ts : List Token) : Prop :=
  ∀ rest, Token.stops rest = true → tokens (cs ++ rest) = ts ++ tokens rest

namespace Writes

variable {cs ds : List Char} {ts us : List Token}

theorem tokens_eq (h : Writes cs ts) : tokens cs = ts := by
  simpa using h [] rfl

theorem nil : Writes [] [] := fun _ _ => rfl

theorem blank (h : Writes cs ts) : Writes (' ' :: cs) ts := fun rest hs => by
  rw [List.cons_append, tokens_of_isBlank (by decide), h rest hs]

theorem append (h : Writes cs ts) (h' : Writes ds us) (hds : Token.stops ds = true) :
    Writes (cs ++ ds) (ts ++ us) := fun rest hs => by
  have hstop : Token.stops (ds ++ rest) = true := by
    cases ds with
    | nil => exact hs
    | cons d ds => exact hds
  rw [List.append_assoc, h _ hstop, h' rest hs, List.append_assoc]

theorem keyword (k : Keyword) : Writes k.word.toList [.keyword k] := fun rest hs => by
  obtain ⟨c, cs, hw, hc, hcs⟩ : ∃ c cs, k.word.toList = c :: cs ∧ Name.isStart c = true ∧
      Name.isDotted false cs = true := by
    cases k <;> exact ⟨_, _, rfl, by decide, by decide⟩
  have hword : Token.ofWord (c :: cs) = .keyword k := by
    rw [Token.ofWord, ← hw, String.ofList_toList, Keyword.ofWord?_word]
  rw [hw, tokens_word hc hcs hs, hword]
  rfl

theorem quotedName {n : String} (hn : n ≠ "") : Writes (Name.quoted n).toList [.name n] := by
  intro rest hs
  have hne : n.toList ≠ [] := by simpa using hn
  have hq : rest.head? ≠ some '\x60' := by
    cases rest with
    | nil => simp
    | cons c cs =>
      simp only [Token.stops, Bool.and_eq_true, bne_iff_ne] at hs
      simpa using hs.2
  simpa [Name.quoted] using tokens_quotedName hne hq

/-- A name that is not empty writes itself as one token. -/
theorem name {n : String} (hn : n ≠ "") : Writes (Name.render n).toList [.name n] := by
  rw [Name.render]
  split
  · next hp =>
    intro rest hs
    obtain ⟨c, cs, hcs, hc, hdotted, hword⟩ := Name.exists_of_isPlain hp
    rw [hcs, tokens_word hc hdotted hs, hword]
    rfl
  · exact quotedName hn

theorem parameter {n : String} (hn : Name.isDotted true n.toList = true) :
    Writes ('@' :: n.toList) [.parameter n] := by
  intro rest hs
  rw [List.cons_append, tokens_parameter hn hs, String.ofList_toList]
  rfl

end Writes

/-- Some characters write some tokens, whatever follows them. -/
def Closes (cs : List Char) (ts : List Token) : Prop :=
  ∀ rest, tokens (cs ++ rest) = ts ++ tokens rest

variable {cs ds : List Char} {ts us : List Token}

theorem Writes.append_closes (h : Writes cs ts) (h' : Closes ds us)
    (hds : Token.stops ds = true) (hne : ds ≠ []) : Closes (cs ++ ds) (ts ++ us) := fun rest => by
  obtain ⟨d, ds, rfl⟩ := List.exists_cons_of_ne_nil hne
  rw [List.append_assoc, h (d :: ds ++ rest) hds, h', List.append_assoc]

namespace Closes

theorem writes (h : Closes cs ts) : Writes cs ts :=
  fun rest _ => h rest

theorem nil : Closes [] [] :=
  fun _ => rfl

theorem blank : Closes [' '] [] :=
  tokens_of_isBlank (by decide)

theorem mark {s : Symbol} {c : Char} (hc : s.mark? = some c) : Closes [c] [.symbol s] :=
  tokens_mark hc

theorem append (h : Closes cs ts) (h' : Closes ds us) : Closes (cs ++ ds) (ts ++ us) :=
  fun rest => by rw [List.append_assoc, h, h', List.append_assoc]

theorem append_writes (h : Closes cs ts) (h' : Writes ds us) : Writes (cs ++ ds) (ts ++ us) :=
  fun rest hs => by rw [List.append_assoc, h, h' rest hs, List.append_assoc]

theorem keyword (k : Keyword) : Closes (k.word.toList ++ [' ']) [.keyword k] :=
  (Writes.keyword k).append_closes blank rfl (by decide)

theorem spaced (k : Keyword) : Closes (' ' :: (k.word.toList ++ [' '])) [.keyword k] :=
  blank.append (keyword k)

end Closes

end StoreQuery

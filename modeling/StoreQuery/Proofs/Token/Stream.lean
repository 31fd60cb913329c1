import StoreQuery.Token.Scan

/-! # The tokens of a text

The grammar looks at tokens and not at their places. The tokens of some characters are found one at
a time, and a piece of text has tokens of its own if they come out the same whatever follows it.
-/

namespace StoreQuery

open Text

theorem Text.isDigit_iff {c : Char} : c.isDigit = true ↔ 48 ≤ c.toNat ∧ c.toNat ≤ 57 := by
  simp [Char.isDigit, UInt32.le_iff_toNat_le, ← Char.toNat_val]

theorem Text.of_isDigit {p : Char → Prop} (hall : ∀ n < 10, p (Char.ofNat (48 + n))) {c : Char}
    (h : c.isDigit = true) : p c := by
  obtain ⟨hlo, hhi⟩ := isDigit_iff.1 h
  have hc : Char.ofNat (48 + (c.toNat - 48)) = c := by
    rw [Nat.add_sub_cancel' hlo, Char.ofNat_toNat]
  rw [← hc]
  exact hall _ (by omega)

namespace Name

theorem isPart_of_isDigit {c : Char} (h : c.isDigit = true) : isPart c = true := by
  have hlt : c.toNat < 128 := by
    have := (isDigit_iff.1 h).2
    omega
  simp [isPart, isAlphanumeric, isNumeral, hlt, h]

theorem ne_of_isStart {c d : Char} (h : isStart c = true) (hd : isStart d = false) : c ≠ d := by
  rintro rfl
  simp [h] at hd

theorem isDigit_of_isStart {c : Char} (h : isStart c = true) : c.isDigit = false := by
  rw [Bool.eq_false_iff]
  intro hd
  have := of_isDigit (p := fun c => isStart c = false) (by decide) hd
  rw [h] at this
  exact absurd this (by decide)

theorem isBlank_of_isStart {c : Char} (h : isStart c = true) : isBlank c = false := by
  rw [Bool.eq_false_iff]
  intro hb
  obtain ⟨r, hr, hlo, hhi⟩ := CharSet.contains_iff.1 hb
  have hall : ∀ r ∈ blanks.ranges, ∀ n < r.2 - r.1 + 1, isStart (Char.ofNat (r.1 + n)) = false := by
    decide +kernel
  have hc : Char.ofNat (r.1 + (c.toNat - r.1)) = c := by
    rw [Nat.add_sub_cancel' hlo, Char.ofNat_toNat]
  have := hall r hr (c.toNat - r.1) (by omega)
  rw [hc, h] at this
  exact absurd this (by decide)

end Name

namespace Trivia

theorem drop_nil : drop [] = [] := by
  rw [drop]

theorem drop_of_isBlank {c : Char} (h : isBlank c = true) (cs : List Char) :
    drop (c :: cs) = drop cs := by
  rw [drop, if_pos h]
  · rintro rest rfl
    exact absurd h (by decide)
  · rintro rest rfl
    exact absurd h (by decide)

theorem drop_eq_self {c : Char} {cs : List Char} (hb : isBlank c = false)
    (hm : c = '-' → cs.head? ≠ some '-') (hs : c = '/' → cs.head? ≠ some '*') :
    drop (c :: cs) = c :: cs := by
  rw [drop, if_neg (by simp [hb])]
  · rintro rest hc rfl
    exact hm hc rfl
  · rintro rest hc rfl
    exact hs hc rfl

end Trivia

namespace Lexeme

theorem scanFrom_of_drop_nil {size : Nat} {cs : List Char} (h : Trivia.drop cs = []) :
    scanFrom size cs = [] := by
  rw [scanFrom]
  split
  · rfl
  · next heq => simp [h] at heq

theorem scanFrom_of_drop_cons {size : Nat} {c : Char} {cs rest : List Char}
    (h : Trivia.drop cs = c :: rest) :
    scanFrom size cs =
      ⟨(Token.read c rest).1, size - width (c :: rest), size - width (Token.read c rest).2⟩ ::
        scanFrom size (Token.read c rest).2 := by
  rw [scanFrom]
  split
  · next heq => simp [h] at heq
  · next heq =>
    rw [h] at heq
    cases heq
    rfl

def tokens (cs : List Char) : List Token :=
  (scanFrom 0 cs).map Lexeme.token

theorem map_token_scanFrom (size : Nat) (cs : List Char) :
    (scanFrom size cs).map Lexeme.token = tokens cs := by
  rw [tokens]
  fun_induction scanFrom size cs with
  | case1 cs h => rw [scanFrom_of_drop_nil h]
  | case2 cs c rest h hlt p ih =>
    rw [scanFrom_of_drop_cons h, List.map_cons, List.map_cons, ih]

theorem map_token_scan (text : String) :
    (scan text).map Lexeme.token = tokens text.toList :=
  map_token_scanFrom _ _

@[simp] theorem tokens_nil : tokens [] = [] := by
  rw [tokens, scanFrom_of_drop_nil Trivia.drop_nil, List.map_nil]

theorem tokens_of_drop_cons {c : Char} {cs rest : List Char} (h : Trivia.drop cs = c :: rest) :
    tokens cs = (Token.read c rest).1 :: tokens (Token.read c rest).2 := by
  rw [tokens, scanFrom_of_drop_cons h]
  rfl

theorem tokens_of_isBlank {c : Char} (h : isBlank c = true) (cs : List Char) :
    tokens (c :: cs) = tokens cs := by
  cases hd : Trivia.drop cs with
  | nil =>
    rw [tokens, tokens, scanFrom_of_drop_nil hd,
      scanFrom_of_drop_nil (by rw [Trivia.drop_of_isBlank h, hd])]
  | cons d rest =>
    rw [tokens_of_drop_cons hd, tokens_of_drop_cons (by rw [Trivia.drop_of_isBlank h, hd])]

theorem tokens_eq_read {c : Char} {cs : List Char} (hb : isBlank c = false)
    (hm : c = '-' → cs.head? ≠ some '-') (hs : c = '/' → cs.head? ≠ some '*') :
    tokens (c :: cs) = (Token.read c cs).1 :: tokens (Token.read c cs).2 :=
  tokens_of_drop_cons (Trivia.drop_eq_self hb hm hs)

end Lexeme

namespace Token

/-- Whether a name or a number that stands before some characters ends there. -/
def stops : List Char → Bool
  | [] => true
  | c :: _ => !Name.isPart c && c != '.' && c != '\x60'

theorem readName_of_stops {rest : List Char} (h : stops rest = true) :
    readName rest = ([], rest) := by
  cases rest with
  | nil => rfl
  | cons c cs =>
    simp only [stops, Bool.and_eq_true, Bool.not_eq_true', bne_iff_ne] at h
    simp [readName, h.1.1, h.1.2]

theorem readName_append {b : Bool} {cs rest : List Char} (h : Name.isDotted b cs = true)
    (hs : readName rest = ([], rest)) : readName (cs ++ rest) = (cs, rest) := by
  induction cs generalizing b with
  | nil => exact hs
  | cons c cs ih =>
    have hc : (Name.isPart c || (c == '.' && startsName (cs ++ rest))) = true ∧
        ∃ b, Name.isDotted b cs = true := by
      cases b with
      | true =>
        simp only [Name.isDotted, Bool.and_eq_true] at h
        exact ⟨by simp [Name.isPart_of_isStart h.1], false, h.2⟩
      | false =>
        simp only [Name.isDotted] at h
        split at h
        · next heq =>
          refine ⟨?_, true, h⟩
          cases cs with
          | nil => simp [Name.isDotted] at h
          | cons d ds =>
            simp only [Name.isDotted, Bool.and_eq_true] at h
            simp [heq, startsName, h.1]
        · simp only [Bool.and_eq_true] at h
          exact ⟨by simp [h.1], false, h.2⟩
    obtain ⟨hp, b', hb⟩ := hc
    rw [List.cons_append, readName, if_pos hp, ih hb]

/-- A token that begins like a name is a word. -/
theorem read_of_isStart {c : Char} (hc : Name.isStart c = true) (cs : List Char) :
    read c cs = (ofWord (readName (c :: cs)).1, (readName (c :: cs)).2) := by
  have hne : ∀ d, Name.isStart d = false → c ≠ d := fun d => Name.ne_of_isStart hc
  rw [read, if_neg (by simp [hne '"' (by decide), hne '\'' (by decide)]),
    if_neg (hne '\x60' (by decide)), if_neg (hne '@' (by decide)),
    if_neg (by simp [Name.isDigit_of_isStart hc]), if_neg (fun h => hne '-' (by decide) h.1),
    if_pos hc]

theorem readQuotedName_append (cs : List Char) {rest : List Char}
    (hs : rest.head? ≠ some '\x60') :
    readQuotedName (cs.flatMap Name.escape ++ '\x60' :: rest) = some (cs, rest) := by
  induction cs with
  | nil =>
    cases rest with
    | nil => rfl
    | cons c cs =>
      have hc : c ≠ '\x60' := fun hc => hs (by rw [hc]; rfl)
      simp [readQuotedName, hc]
  | cons c cs ih =>
    rw [List.flatMap_cons, Name.escape, List.append_assoc]
    split
    · next hc => simp [readQuotedName, ih, hc]
    · next hc => simp [readQuotedName, ih, hc]

end Token

namespace Token

section Kinds

/-- Whether a token can be read from digits. -/
def isNumeral : Token → Bool
  | integer _ | float _ | invalid _ => true
  | _ => false

theorem isNumeral_ofDecimal (negative : Bool) (whole fraction : List Char) (exponent : Int) :
    (ofDecimal negative whole fraction exponent).isNumeral = true := by
  unfold ofDecimal
  dsimp only
  split <;> rfl

theorem isNumeral_readNumber (negative : Bool) (cs : List Char) :
    (readNumber negative cs).1.isNumeral = true := by
  unfold readNumber
  dsimp only
  split
  · split
    · rfl
    · exact isNumeral_ofDecimal ..
  · split
    · unfold ofDigits
      dsimp only
      split <;> split <;> rfl
    · exact isNumeral_ofDecimal ..

/-- Whether a token can be read where neither a literal nor a word begins. -/
def isSymbol : Token → Bool
  | symbol _ | invalid (.strange _) => true
  | _ => false

theorem isSymbol_readSymbol (c : Char) (cs : List Char) :
    (readSymbol c cs).1.isSymbol = true := by
  unfold readSymbol
  split <;> (try split) <;> rfl

inductive Reads (c : Char) (cs : List Char) : Token → List Char → Prop where
  | text {s rest : List Char} (h : readText c cs = (.ok s, rest)) :
      Reads c cs (text (String.ofList s)) rest
  | brokenText {fault : LexicalFault} {rest : List Char}
      (h : readText c cs = (.error fault, rest)) : Reads c cs (invalid fault) rest
  | quotedName {s rest : List Char} (hs : s ≠ []) (h : readQuotedName cs = some (s, rest)) :
      Reads c cs (name (String.ofList s)) rest
  | emptyName {rest : List Char} (h : readQuotedName cs = some ([], rest)) :
      Reads c cs (invalid .emptyName) rest
  | openName (h : readQuotedName cs = none) : Reads c cs (invalid .openName) []
  | parameter (hcs : startsName cs = true) :
      Reads c cs (parameter (String.ofList (readName cs).1)) (readName cs).2
  | noParameter (hcs : startsName cs = false) : Reads c cs (invalid .noParameterName) cs
  | number (hc : c.isDigit = true) :
      Reads c cs (readNumber false (c :: cs)).1 (readNumber false (c :: cs)).2
  | negative (hc : c = '-') (hcs : cs.head?.any Char.isDigit = true) :
      Reads c cs (readNumber true cs).1 (readNumber true cs).2
  | word (hc : Name.isStart c = true) :
      Reads c cs (ofWord (readName (c :: cs)).1) (readName (c :: cs)).2
  | symbol : Reads c cs (readSymbol c cs).1 (readSymbol c cs).2

theorem reads (c : Char) (cs : List Char) : Reads c cs (read c cs).1 (read c cs).2 := by
  unfold read
  split
  · split
    · next h => exact .text h
    · next h => exact .brokenText h
  split
  · split
    · next h => exact .emptyName h
    · next hs h => exact .quotedName hs h
    · next h => exact .openName h
  split
  · split
    · next h => exact .parameter h
    · next h => exact .noParameter (Bool.eq_false_iff.2 h)
  split
  · next h => exact .number h
  split
  · next h => exact .negative h.1 h.2
  split
  · next h => exact .word h
  · exact .symbol

theorem reads_of_read {c : Char} {cs rest : List Char} {t : Token} (h : read c cs = (t, rest)) :
    Reads c cs t rest := by
  have hreads := reads c cs
  rwa [h] at hreads

end Kinds

/-- What is true of every token that is read: names and parameters are not empty, and the end of
the text is never among the tokens. -/
def IsRead : Token → Prop
  | name s => s ≠ ""
  | parameter s => Name.isDotted true s.toList = true
  | eof => False
  | _ => True

theorem isDotted_readName (cs : List Char) :
    Name.isDotted false (readName cs).1 = true ∧
      (startsName cs = true → Name.isDotted true (readName cs).1 = true) := by
  induction cs with
  | nil => exact ⟨rfl, fun h => absurd h (by decide)⟩
  | cons c cs ih =>
    rw [readName]
    split
    · next h =>
      refine ⟨?_, fun hs => ?_⟩
      · rw [Name.isDotted]
        split
        · next hc =>
          subst hc
          exact ih.2 (by simpa [show Name.isPart '.' = false by decide] using h)
        · next hc =>
          have hp : Name.isPart c = true := by simpa [hc] using h
          rw [hp, ih.1, Bool.true_and]
      · have hs : Name.isStart c = true := hs
        rw [Name.isDotted, hs, ih.1, Bool.true_and]
    · next h =>
      refine ⟨rfl, fun hs => ?_⟩
      have hs : Name.isStart c = true := hs
      exact absurd (by rw [Name.isPart_of_isStart hs, Bool.true_or]) h

theorem ofList_cons_ne (c : Char) (cs : List Char) : String.ofList (c :: cs) ≠ "" := by
  intro h
  have := congrArg String.toList h
  simp at this

theorem isRead_ofWord (c : Char) (cs : List Char) : (ofWord (c :: cs)).IsRead := by
  unfold ofWord
  split
  · trivial
  · exact ofList_cons_ne c cs

theorem isRead_of_isNumeral {t : Token} (h : t.isNumeral = true) : t.IsRead := by
  cases t <;> trivial

theorem isRead_of_isSymbol {t : Token} (h : t.isSymbol = true) : t.IsRead := by
  cases t <;> trivial

theorem isRead_read (c : Char) (cs : List Char) : (read c cs).1.IsRead := by
  have h := reads c cs
  generalize (read c cs).1 = t, (read c cs).2 = rest at h
  cases h with
  | text | brokenText | emptyName | openName | noParameter => trivial
  | quotedName hs =>
    obtain ⟨d, ds, rfl⟩ := List.exists_cons_of_ne_nil hs
    exact ofList_cons_ne d ds
  | parameter hcs =>
    rw [IsRead, String.toList_ofList]
    exact (isDotted_readName cs).2 hcs
  | number | negative => exact isRead_of_isNumeral (isNumeral_readNumber ..)
  | word hc =>
    rw [readName, if_pos (by rw [Name.isPart_of_isStart hc, Bool.true_or])]
    exact isRead_ofWord ..
  | symbol => exact isRead_of_isSymbol (isSymbol_readSymbol ..)

end Token

theorem Lexeme.isRead_of_mem_tokens {cs : List Char} {t : Token} (h : t ∈ tokens cs) :
    t.IsRead := by
  unfold tokens at h
  fun_induction scanFrom 0 cs with
  | case1 => cases h
  | case2 cs c rest _ _ p ih =>
    rcases List.mem_cons.1 h with rfl | h
    · exact Token.isRead_read c rest
    · exact ih h

end StoreQuery

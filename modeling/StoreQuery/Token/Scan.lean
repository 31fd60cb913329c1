import StoreQuery.Number.Decimal
import StoreQuery.Text.Blank
import StoreQuery.Token.Basic
import StoreQuery.Token.Name

/-! # Reading tokens

`Token.read` reads the longest token at the front of some characters. `Lexeme.scan` splits a whole
text into tokens; between them stand only blanks and comments. Every character belongs to a token or
to a gap, so nothing in a text is passed over silently.
-/

namespace StoreQuery

open Number Text

namespace Trivia

/-- What follows a block comment, after its opening; an open comment runs to the end. -/
def dropBlock : List Char → List Char
  | [] => []
  | '*' :: '/' :: cs => cs
  | _ :: cs => dropBlock cs

theorem dropBlock_length_le (cs : List Char) : (dropBlock cs).length ≤ cs.length := by
  fun_induction dropBlock cs with
  | case1 => exact Nat.le_refl _
  | case2 cs => exact Nat.le_add_right cs.length 2
  | case3 c cs _ ih => exact Nat.le_succ_of_le ih

theorem dropWhile_length_le (p : Char → Bool) (cs : List Char) :
    (cs.dropWhile p).length ≤ cs.length :=
  (List.dropWhile_sublist p).length_le

def drop (cs : List Char) : List Char :=
  match cs with
  | [] => []
  | '-' :: '-' :: rest =>
    have := dropWhile_length_le (· != '\n') rest
    drop (rest.dropWhile (· != '\n'))
  | '/' :: '*' :: rest =>
    have := dropBlock_length_le rest
    drop (dropBlock rest)
  | c :: rest => if isBlank c then drop rest else c :: rest
termination_by cs.length

theorem drop_length_le (cs : List Char) : (drop cs).length ≤ cs.length := by
  fun_induction drop cs with
  | case1 => exact Nat.le_refl _
  | case2 rest hrest ih | case3 rest hrest ih =>
    exact Nat.le_trans ih (Nat.le_trans hrest (Nat.le_add_right rest.length 2))
  | case4 c rest _ _ _ ih => exact Nat.le_succ_of_le ih
  | case5 c rest => exact Nat.le_refl _

end Trivia

namespace Token

def startsName : List Char → Bool
  | c :: _ => Name.isStart c
  | [] => false

/-- The characters of a plain name and what follows it. A point belongs to the name if another
segment follows it. -/
def readName : List Char → List Char × List Char
  | [] => ([], [])
  | c :: cs =>
    if Name.isPart c || (c == '.' && startsName cs) then
      (c :: (readName cs).1, (readName cs).2)
    else ([], c :: cs)

def ofWord (cs : List Char) : Token :=
  match Keyword.ofWord? (String.ofList cs) with
  | some k => keyword k
  | none => name (String.ofList cs)

def readQuotedName : List Char → Option (List Char × List Char)
  | [] => none
  | '\x60' :: '\x60' :: cs => (readQuotedName cs).map fun (n, rest) => ('\x60' :: n, rest)
  | '\x60' :: cs => some ([], cs)
  | c :: cs => (readQuotedName cs).map fun (n, rest) => (c :: n, rest)

/-- An integer of the given digits, which has to fit a signed word. -/
def ofDigits (negative : Bool) (digits : List Char) : Token :=
  let n := Nat.ofDigitChars 10 digits 0
  if negative then
    if n ≤ 0x8000000000000000 then integer (Int64.ofInt (-n)) else invalid .integerTooSmall
  else
    if n < 0x8000000000000000 then integer (Int64.ofInt n) else invalid .integerTooLarge

def ofDecimal (negative : Bool) (whole fraction : List Char) (exponent : Int) : Token :=
  let digits := Nat.ofDigitChars 10 (whole ++ fraction) 0
  match Decimal.toFinite? negative ⟨digits, exponent - fraction.length⟩ with
  | some x => float x
  | none => invalid .floatTooLarge

/-- The digits after a point and what follows them. A point without digits is left. -/
def readFraction (cs : List Char) : List Char × List Char :=
  match cs with
  | '.' :: rest =>
    if (rest.takeWhile Char.isDigit).isEmpty then ([], cs)
    else (rest.takeWhile Char.isDigit, rest.dropWhile Char.isDigit)
  | _ => ([], cs)

def readSign (cs : List Char) : Bool × List Char :=
  match cs with
  | '+' :: rest => (false, rest)
  | '-' :: rest => (true, rest)
  | _ => (false, cs)

def readNumber (negative : Bool) (cs : List Char) : Token × List Char :=
  let whole := cs.takeWhile Char.isDigit
  let (fraction, rest) := readFraction (cs.dropWhile Char.isDigit)
  if rest.head? = some 'e' ∨ rest.head? = some 'E' then
    let (down, rest) := readSign rest.tail
    let digits := rest.takeWhile Char.isDigit
    if digits.isEmpty then (invalid .noExponent, rest)
    else
      let n : Int := Nat.ofDigitChars 10 digits 0
      (ofDecimal negative whole fraction (if down then -n else n), rest.dropWhile Char.isDigit)
  else if fraction.isEmpty then (ofDigits negative whole, rest)
  else (ofDecimal negative whole fraction 0, rest)

def hexValue? (c : Char) : Option Nat :=
  if '0' ≤ c ∧ c ≤ '9' then some (c.toNat - '0'.toNat)
  else if 'a' ≤ c ∧ c ≤ 'f' then some (c.toNat - 'a'.toNat + 10)
  else if 'A' ≤ c ∧ c ≤ 'F' then some (c.toNat - 'A'.toNat + 10)
  else none

/-- A number of `count` more hexadecimal digits. A character that is none ends it and is passed. -/
def readHex : (count : Nat) → (before : Nat) → List Char → Option Nat × List Char
  | 0, n, cs => (some n, cs)
  | _ + 1, _, [] => (none, [])
  | count + 1, n, c :: cs =>
    match hexValue? c with
    | some d => readHex count (n * 16 + d) cs
    | none => (none, cs)

/-- The character of a hexadecimal escape, after its letter. Characters above the four digits are
written as a surrogate pair; half a pair is no character. -/
def readCodePoint (cs : List Char) : Option Char × List Char :=
  match readHex 4 0 cs with
  | (none, rest) => (none, rest)
  | (some high, rest) =>
    if 0xD800 ≤ high ∧ high < 0xDC00 then
      match rest with
      | '\\' :: 'u' :: rest =>
        match readHex 4 0 rest with
        | (none, rest) => (none, rest)
        | (some low, rest) =>
          if 0xDC00 ≤ low ∧ low < 0xE000 then
            (some (Char.ofNat (0x10000 + (high - 0xD800) * 0x400 + (low - 0xDC00))), rest)
          else (none, rest)
      | _ => (none, rest)
    else if 0xDC00 ≤ high ∧ high < 0xE000 then (none, rest)
    else (some (Char.ofNat high), rest)

def readEscape : List Char → Option Char × List Char
  | [] => (none, [])
  | c :: cs =>
    match c with
    | '"' | '\'' | '\\' | '/' => (some c, cs)
    | 'b' => (some '\x08', cs)
    | 'f' => (some '\x0c', cs)
    | 'n' => (some '\n', cs)
    | 'r' => (some '\r', cs)
    | 't' => (some '\t', cs)
    | 'u' => readCodePoint cs
    | _ => (none, cs)

theorem readHex_length_le (count n : Nat) (cs : List Char) :
    (readHex count n cs).2.length ≤ cs.length := by
  fun_induction readHex count n cs with
  | case1 n cs => exact Nat.le_refl _
  | case2 => exact Nat.le_refl _
  | case3 count n c cs d hd ih => exact Nat.le_succ_of_le ih
  | case4 count n c cs hd => exact Nat.le_succ _

theorem readCodePoint_length_le (cs : List Char) :
    (readCodePoint cs).2.length ≤ cs.length := by
  have h := readHex_length_le 4 0 cs
  unfold readCodePoint
  split
  · next rest heq => rwa [heq] at h
  · next high rest heq =>
    rw [heq] at h
    split
    · split
      · next rest' =>
        have h' := readHex_length_le 4 0 rest'
        have hle : rest'.length ≤ cs.length := Nat.le_trans (Nat.le_add_right _ 2) h
        split
        · next last heq' =>
          rw [heq'] at h'
          exact Nat.le_trans h' hle
        · next low last heq' =>
          rw [heq'] at h'
          split <;> exact Nat.le_trans h' hle
      · exact h
    · split <;> exact h

theorem readEscape_length_le (cs : List Char) : (readEscape cs).2.length ≤ cs.length := by
  cases cs with
  | nil => exact Nat.le_refl _
  | cons c cs =>
    unfold readEscape
    dsimp only
    split
    case h_10 => exact Nat.le_succ_of_le (readCodePoint_length_le cs)
    all_goals exact Nat.le_succ _

/-- The text up to its closing quote and what follows the quote, after the opening quote. A bad
escape ends the literal at the character that makes it bad. -/
def readText (quote : Char) (cs : List Char) : Except LexicalFault (List Char) × List Char :=
  match cs with
  | [] => (.error .openText, [])
  | c :: rest =>
    if c = quote then (.ok [], rest)
    else if c = '\\' then
      match h : readEscape rest with
      | (some d, rest') =>
        have : rest'.length ≤ rest.length := by simpa [h] using readEscape_length_le rest
        let p := readText quote rest'
        (p.1.map (d :: ·), p.2)
      | (none, rest') => (.error .badEscape, rest')
    else
      let p := readText quote rest
      (p.1.map (c :: ·), p.2)
termination_by cs.length

def readSymbol (c : Char) (cs : List Char) : Token × List Char :=
  match c with
  | '(' => (symbol .leftParen, cs)
  | ')' => (symbol .rightParen, cs)
  | '\x7b' => (symbol .leftBrace, cs)
  | '\x7d' => (symbol .rightBrace, cs)
  | '[' => (symbol .leftBracket, cs)
  | ']' => (symbol .rightBracket, cs)
  | ',' => (symbol .comma, cs)
  | ':' => (symbol .colon, cs)
  | ';' => (symbol .semicolon, cs)
  | '*' => (symbol .star, cs)
  | '-' => (symbol .minus, cs)
  | '=' => (symbol .equal, cs)
  | '<' => match cs with
    | '=' :: rest => (symbol .lessEqual, rest)
    | _ => (symbol .less, cs)
  | '>' => match cs with
    | '=' :: rest => (symbol .greaterEqual, rest)
    | _ => (symbol .greater, cs)
  | _ => (invalid (.strange c), cs)

/-- The token at the front of some characters and what follows it. A minus directly before a digit
belongs to the number, so that the least integer can be written. -/
def read (c : Char) (cs : List Char) : Token × List Char :=
  if c = '"' ∨ c = '\'' then
    match readText c cs with
    | (.ok s, rest) => (text (String.ofList s), rest)
    | (.error fault, rest) => (invalid fault, rest)
  else if c = '\x60' then
    match readQuotedName cs with
    | some ([], rest) => (invalid .emptyName, rest)
    | some (s, rest) => (name (String.ofList s), rest)
    | none => (invalid .openName, [])
  else if c = '@' then
    if startsName cs then (parameter (String.ofList (readName cs).1), (readName cs).2)
    else (invalid .noParameterName, cs)
  else if c.isDigit then readNumber false (c :: cs)
  else if c = '-' ∧ (cs.head?.any Char.isDigit) then readNumber true cs
  else if Name.isStart c then
    (ofWord (readName (c :: cs)).1, (readName (c :: cs)).2)
  else readSymbol c cs

theorem readName_length_le (cs : List Char) : (readName cs).2.length ≤ cs.length := by
  fun_induction readName cs with
  | case1 => exact Nat.le_refl _
  | case2 c cs hc ih => exact Nat.le_succ_of_le ih
  | case3 c cs hc => exact Nat.le_refl _

theorem readQuotedName_length_le {cs n rest : List Char}
    (h : readQuotedName cs = some (n, rest)) : rest.length ≤ cs.length := by
  fun_induction readQuotedName cs generalizing n with
  | case1 => cases h
  | case2 cs ih =>
    obtain ⟨⟨m, last⟩, hm, ⟨⟩⟩ := Option.map_eq_some_iff.1 h
    exact Nat.le_trans (ih hm) (Nat.le_add_right _ 2)
  | case3 cs =>
    cases h
    exact Nat.le_succ _
  | case4 c cs _ _ ih =>
    obtain ⟨⟨m, last⟩, hm, ⟨⟩⟩ := Option.map_eq_some_iff.1 h
    exact Nat.le_succ_of_le (ih hm)

theorem readFraction_length_le (cs : List Char) : (readFraction cs).2.length ≤ cs.length := by
  unfold readFraction
  split
  · next rest =>
    split
    · exact Nat.le_refl _
    · exact Nat.le_succ_of_le (Trivia.dropWhile_length_le Char.isDigit rest)
  · exact Nat.le_refl _

theorem readSign_length_le (cs : List Char) : (readSign cs).2.length ≤ cs.length := by
  unfold readSign
  split
  · exact Nat.le_succ _
  · exact Nat.le_succ _
  · exact Nat.le_refl _

theorem readNumber_length_le (negative : Bool) (cs : List Char) :
    (readNumber negative cs).2.length ≤ (cs.dropWhile Char.isDigit).length := by
  have h := readFraction_length_le (cs.dropWhile Char.isDigit)
  unfold readNumber
  dsimp only
  generalize readFraction (cs.dropWhile Char.isDigit) = p at h
  split
  · have hsign : (readSign p.2.tail).2.length ≤ (cs.dropWhile Char.isDigit).length :=
      Nat.le_trans (readSign_length_le p.2.tail) (Nat.le_trans p.2.tail_sublist.length_le h)
    split
    · exact hsign
    · exact Nat.le_trans (Trivia.dropWhile_length_le ..) hsign
  · split <;> exact h

theorem readText_length_le (quote : Char) (cs : List Char) :
    (readText quote cs).2.length ≤ cs.length := by
  fun_induction readText quote cs with
  | case1 => exact Nat.le_refl _
  | case2 rest => exact Nat.le_succ _
  | case3 rest _ rest' _ hle _ _ ih => exact Nat.le_succ_of_le (Nat.le_trans ih hle)
  | case4 rest rest' h _ =>
    have := readEscape_length_le rest
    rw [h] at this
    exact Nat.le_succ_of_le this
  | case5 c rest _ _ _ ih => exact Nat.le_succ_of_le ih

theorem readSymbol_length_le (c : Char) (cs : List Char) :
    (readSymbol c cs).2.length ≤ cs.length := by
  unfold readSymbol
  split
  case h_13 | h_14 =>
    split
    · exact Nat.le_succ _
    · exact Nat.le_refl _
  all_goals exact Nat.le_refl _

/-- A token takes at least the character it begins with. -/
theorem read_length_le (c : Char) (cs : List Char) : (read c cs).2.length ≤ cs.length := by
  unfold read
  split
  · have h := readText_length_le c cs
    split
    · next s rest heq => rwa [heq] at h
    · next fault rest heq => rwa [heq] at h
  · split
    · split
      · next h => exact readQuotedName_length_le h
      · next h => exact readQuotedName_length_le h
      · exact Nat.zero_le _
    · split
      · split
        · exact readName_length_le cs
        · exact Nat.le_refl _
      · split
        · next hd =>
          have h := readNumber_length_le false (c :: cs)
          rw [List.dropWhile_cons_of_pos hd] at h
          exact Nat.le_trans h (Trivia.dropWhile_length_le ..)
        · split
          · exact Nat.le_trans (readNumber_length_le true cs) (Trivia.dropWhile_length_le ..)
          · split
            · next hs =>
              rw [readName, if_pos (by rw [Name.isPart_of_isStart hs]; rfl)]
              exact readName_length_le cs
            · exact readSymbol_length_le c cs

end Token

namespace Lexeme

/-- The tokens of some characters with their places, up to the end of a text of `size` bytes that
the characters end. -/
def scanFrom (size : Nat) (cs : List Char) : List Lexeme :=
  match h : Trivia.drop cs with
  | [] => []
  | c :: rest =>
    have : (Token.read c rest).2.length < cs.length := by
      have h1 := Trivia.drop_length_le cs
      have h2 := Token.read_length_le c rest
      simp only [h, List.length_cons] at h1
      omega
    let p := Token.read c rest
    ⟨p.1, size - width (c :: rest), size - width p.2⟩ :: scanFrom size p.2
termination_by cs.length

def scan (text : String) : List Lexeme :=
  scanFrom (width text.toList) text.toList

def ending (text : String) : Lexeme :=
  ⟨.eof, .point (width text.toList)⟩

end Lexeme

end StoreQuery

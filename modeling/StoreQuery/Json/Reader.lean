import StoreQuery.Json.Fault
import StoreQuery.Json.Printer
import StoreQuery.Number.Decimal
import StoreQuery.Text.Shown
import StoreQuery.Text.Span

/-! # Reading JSON documents

Each reader takes the characters that are left and gives what it read with the characters after
it, or the first fault. Containers may be nested 127 deep in a document that is kept; a value that
is only skipped has no such limit.
-/

namespace StoreQuery.Json

open Number Text

def isJsonBlank (c : Char) : Bool :=
  c == ' ' || c == '\n' || c == '\t' || c == '\r'

def dropBlanks (cs : List Char) : List Char :=
  cs.dropWhile isJsonBlank

def hexValue? (c : Char) : Option Nat :=
  if '0' ≤ c ∧ c ≤ '9' then some (c.toNat - '0'.toNat)
  else if 'a' ≤ c ∧ c ≤ 'f' then some (c.toNat - 'a'.toNat + 10)
  else if 'A' ≤ c ∧ c ≤ 'F' then some (c.toNat - 'A'.toNat + 10)
  else none

/-- Four hexadecimal digits; fewer than four bytes left are the end of the text. -/
def readHex (cs : List Char) : Except Fault (Nat × List Char) :=
  match cs with
  | a :: b :: c :: d :: rest =>
    match hexValue? a, hexValue? b, hexValue? c, hexValue? d with
    | some a, some b, some c, some d => .ok (((a * 16 + b) * 16 + c) * 16 + d, rest)
    | _, _, _, _ => .error .badEscape
  | _ => .error (if width cs < 4 then .endedIn .text else .badEscape)

theorem readHex_length {cs rest : List Char} {n : Nat} (h : readHex cs = .ok (n, rest)) :
    rest.length < cs.length := by
  unfold readHex at h
  split at h
  · split at h
    · simp only [Except.ok.injEq, Prod.mk.injEq] at h
      simp [← h.2]; omega
    · simp at h
  · simp at h

/-- The second half of a surrogate pair, after its first half. -/
def readLowSurrogate (high : Nat) : List Char → Except Fault (Char × List Char)
  | '\\' :: 'u' :: cs => do
    let (low, rest) ← readHex cs
    if 0xDC00 ≤ low ∧ low ≤ 0xDFFF then
      .ok (Char.ofNat (0x10000 + (high - 0xD800) * 0x400 + (low - 0xDC00)), rest)
    else .error .loneSurrogate
  | [] | ['\\'] => .error (.endedIn .text)
  | _ => .error .halfSurrogate

def readEscape : List Char → Except Fault (Char × List Char)
  | [] => .error (.endedIn .text)
  | 'u' :: cs => do
    let (n, rest) ← readHex cs
    if 0xDC00 ≤ n ∧ n ≤ 0xDFFF then .error .loneSurrogate
    else if 0xD800 ≤ n ∧ n ≤ 0xDBFF then readLowSurrogate n rest
    else .ok (Char.ofNat n, rest)
  | c :: rest =>
    match c with
    | '"' | '\\' | '/' => .ok (c, rest)
    | 'b' => .ok ('\x08', rest)
    | 'f' => .ok ('\x0c', rest)
    | 'n' => .ok ('\n', rest)
    | 'r' => .ok ('\r', rest)
    | 't' => .ok ('\t', rest)
    | _ => .error .badEscape

theorem readLowSurrogate_length {n : Nat} {cs rest : List Char} {c : Char}
    (h : readLowSurrogate n cs = .ok (c, rest)) : rest.length < cs.length := by
  unfold readLowSurrogate at h
  split at h
  · next cs =>
    cases hx : readHex cs with
    | error e => simp [hx, bind, Except.bind] at h
    | ok p =>
      have : p.2.length < cs.length := readHex_length hx
      simp only [hx, bind, Except.bind] at h
      split at h
      · simp only [Except.ok.injEq, Prod.mk.injEq] at h
        simp [← h.2]; omega
      · simp at h
  all_goals simp at h

theorem readEscape_length {cs rest : List Char} {c : Char}
    (h : readEscape cs = .ok (c, rest)) : rest.length < cs.length := by
  unfold readEscape at h
  split at h
  · simp at h
  · next cs =>
    cases hx : readHex cs with
    | error e => simp [hx, bind, Except.bind] at h
    | ok p =>
      have hlt : p.2.length < cs.length := readHex_length hx
      simp only [hx, bind, Except.bind] at h
      split at h
      · simp at h
      · split at h
        · have := readLowSurrogate_length h
          simp; omega
        · simp only [Except.ok.injEq, Prod.mk.injEq] at h
          simp [← h.2]; omega
  · next c' rest' =>
    split at h <;> simp_all

def readText (cs : List Char) : Except Fault (List Char × List Char) :=
  match cs with
  | [] => .error (.endedIn .text)
  | '"' :: rest => .ok ([], rest)
  | '\\' :: rest =>
    match h : readEscape rest with
    | .error fault => .error fault
    | .ok (c, rest') =>
      have := readEscape_length h
      (readText rest').map fun (s, after) => (c :: s, after)
  | c :: rest =>
    if c.toNat < 0x20 then .error .rawControl
    else (readText rest).map fun (s, after) => (c :: s, after)
termination_by cs.length

def readWord : List Char → List Char → Except Fault (List Char)
  | [], rest => .ok rest
  | _ :: _, [] => .error (.endedIn .value)
  | c :: word, d :: rest => if c = d then readWord word rest else .error .unknownWord

/-- Digits taken into a significand as long as it fits an unsigned word, and how many they are. -/
def absorb (significand : Nat) : List Char → Nat × Nat
  | [] => (significand, 0)
  | c :: cs =>
    let next := significand * 10 + (c.toNat - '0'.toNat)
    if next < 0x10000000000000000 then
      let (result, count) := absorb next cs
      (result, count + 1)
    else (significand, 0)

/-- A number times a power of ten, each step being rounded; steps of `10 ^ 308` come first. -/
def timesTen (x : Binary64.Finite) : Nat → Int → Option Binary64.Finite
  | 0, _ => some x
  | steps + 1, k =>
    if k.natAbs ≤ 308 then
      match Decimal.toFinite? false ⟨1, k.natAbs⟩ with
      | some power => if 0 ≤ k then x.mul? power else x.div? power
      | none => none
    else if x.isZero then some x
    else if 0 ≤ k then none
    else
      match Decimal.toFinite? false ⟨1, 308⟩ with
      | some power => (x.div? power).bind fun y => timesTen y steps (k + 308)
      | none => none

/-- A floating-point number from a significand that fits a word and a power of ten. -/
def floatOf (negative : Bool) (significand : Nat) (exponent : Int) : Except Fault Json.Num :=
  match (Binary64.Finite.ofRatio? negative significand 1).bind (timesTen · 4 exponent) with
  | some x => .ok (.float x)
  | none => .error .numberTooLarge

/-- An integer if its magnitude fits, and a floating-point number otherwise; so is a zero with a
sign. -/
def wholeOf (negative : Bool) (n : Nat) : Except Fault Json.Num :=
  if negative then
    if h : 0 < n ∧ n ≤ 0x8000000000000000 then .ok (.integer ⟨-n, by omega, by omega⟩)
    else floatOf true n 0
  else
    if h : n < 0x10000000000000000 then .ok (.integer ⟨n, by omega, by omega⟩)
    else floatOf false n 0

def readExponent : List Char → Except Fault (Int × List Char)
  | [] => .ok (0, [])
  | c :: cs =>
    if c = 'e' ∨ c = 'E' then
      let (negative, cs) := match cs with
        | '+' :: rest => (false, rest)
        | '-' :: rest => (true, rest)
        | _ => (false, cs)
      match cs.takeWhile Char.isDigit with
      | [] => .error (if cs.isEmpty then .endedIn .value else .badNumber)
      | digits =>
        let n : Int := Nat.ofDigitChars 10 digits 0
        .ok (if negative then -n else n, cs.dropWhile Char.isDigit)
    else .ok (0, c :: cs)

/-- A number without its sign. Digits that no longer fit an unsigned word only count. -/
def readNumber (negative : Bool) (cs : List Char) : Except Fault (Json.Num × List Char) :=
  let whole := cs.takeWhile Char.isDigit
  let rest := cs.dropWhile Char.isDigit
  match whole with
  | [] => .error (if cs.isEmpty then .endedIn .value else .badNumber)
  | '0' :: _ :: _ => .error .badNumber
  | _ =>
    let (significand, taken) := absorb 0 whole
    let dropped : Int := (whole.length : Int) - taken
    match rest with
    | '.' :: after =>
      let fraction := after.takeWhile Char.isDigit
      let rest := after.dropWhile Char.isDigit
      if fraction.isEmpty then .error (if rest.isEmpty then .endedIn .value else .badNumber)
      else do
        let (significand, places) := absorb significand fraction
        let (exponent, rest) ← readExponent rest
        return (← floatOf negative significand (dropped - places + exponent), rest)
    | c :: _ =>
      if c = 'e' ∨ c = 'E' then do
        let (exponent, rest) ← readExponent rest
        return (← floatOf negative significand (dropped + exponent), rest)
      else if dropped = 0 then return (← wholeOf negative significand, rest)
      else return (← floatOf negative significand dropped, rest)
    | [] =>
      if dropped = 0 then return (← wholeOf negative significand, rest)
      else return (← floatOf negative significand dropped, rest)

def readColon (cs : List Char) : Except Fault (List Char) :=
  match dropBlanks cs with
  | ':' :: rest => .ok rest
  | [] => .error (.endedIn .object)
  | _ => .error .noColon

/-- Whether another member follows, and the characters after its key's opening quote. At the end of
the object the closing brace is left. -/
def nextKey (first : Bool) (cs : List Char) : Except Fault (Option (List Char)) :=
  let key (rest : List Char) : Except Fault (Option (List Char)) :=
    match rest with
    | '"' :: rest => .ok (some rest)
    | '\x7d' :: _ => .error .trailingComma
    | [] => .error (.endedIn .value)
    | _ => .error .keyNotText
  match dropBlanks cs with
  | '\x7d' :: _ => .ok none
  | [] => .error (.endedIn .object)
  | c :: rest =>
    if first then key (c :: rest)
    else if c = ',' then key (dropBlanks rest)
    else .error .noObjectSeparator

/-- Whether another item follows, and the characters it starts at. At the end of the list the
closing bracket is left. -/
def nextItem (first : Bool) (cs : List Char) : Except Fault (Option (List Char)) :=
  let item (rest : List Char) : Except Fault (Option (List Char)) :=
    match rest with
    | ']' :: _ => .error .trailingComma
    | [] => .error (.endedIn .value)
    | _ => .ok (some rest)
  match dropBlanks cs with
  | ']' :: _ => .ok none
  | [] => .error (.endedIn .list)
  | c :: rest =>
    if first then item (c :: rest)
    else if c = ',' then item (dropBlanks rest)
    else .error .noListSeparator

def closeList (cs : List Char) : Except Fault (List Char) :=
  match dropBlanks cs with
  | ']' :: rest => .ok rest
  | [] => .error (.endedIn .list)
  | ',' :: rest =>
    match dropBlanks rest with
    | ']' :: _ => .error .trailingComma
    | _ => .error .trailingText
  | _ => .error .trailingText

def closeObject (cs : List Char) : Except Fault (List Char) :=
  match dropBlanks cs with
  | '\x7d' :: rest => .ok rest
  | [] => .error (.endedIn .object)
  | ',' :: _ => .error .trailingComma
  | _ => .error .trailingText

mutual

/-- A document, in at most `steps` nested readings. `depth` is one more than the number of
containers that may still be opened. -/
def readValue (steps depth : Nat) (cs : List Char) : Except Fault (Json × List Char) :=
  match steps with
  | 0 => .error .tooDeep
  | steps + 1 =>
    match dropBlanks cs with
    | [] => .error (.endedIn .value)
    | 'n' :: rest => return (.null, ← readWord ['u', 'l', 'l'] rest)
    | 't' :: rest => return (.bool true, ← readWord ['r', 'u', 'e'] rest)
    | 'f' :: rest => return (.bool false, ← readWord ['a', 'l', 's', 'e'] rest)
    | '"' :: rest => do
      let (s, rest) ← readText rest
      return (.text (String.ofList s), rest)
    | '-' :: rest => do
      let (n, rest) ← readNumber true rest
      return (.number n, rest)
    | '[' :: rest =>
      if depth ≤ 1 then .error .tooDeep
      else do
        let (items, rest) ← readItems steps (depth - 1) true rest
        return (.array items, ← closeList rest)
    | '\x7b' :: rest =>
      if depth ≤ 1 then .error .tooDeep
      else do
        let (members, rest) ← readMembers steps (depth - 1) true [] rest
        return (.object members, ← closeObject rest)
    | c :: rest =>
      if c.isDigit then do
        let (n, rest) ← readNumber false (c :: rest)
        return (.number n, rest)
      else .error .noValue

def readItems (steps depth : Nat) (first : Bool) (cs : List Char) :
    Except Fault (List Json × List Char) :=
  match steps with
  | 0 => .error .tooDeep
  | steps + 1 => do
    match ← nextItem first cs with
    | none => return ([], cs)
    | some rest =>
      let (item, rest) ← readValue steps depth rest
      let (items, rest) ← readItems steps depth false rest
      return (item :: items, rest)

def readMembers (steps depth : Nat) (first : Bool) (before : List (String × Json))
    (cs : List Char) : Except Fault (List (String × Json) × List Char) :=
  match steps with
  | 0 => .error .tooDeep
  | steps + 1 => do
    match ← nextKey first cs with
    | none => return (before, cs)
    | some rest =>
      let (key, rest) ← readText rest
      let rest ← readColon rest
      let (value, rest) ← readValue steps depth rest
      readMembers steps depth false (insert (String.ofList key) value before) rest

end

/-- The escape of a skipped text: surrogates need no partner there. -/
def skipEscape : List Char → Except Fault (List Char)
  | [] => .error (.endedIn .text)
  | 'u' :: cs => (readHex cs).map (·.2)
  | c :: rest =>
    if c ∈ ['"', '\\', '/', 'b', 'f', 'n', 'r', 't'] then .ok rest else .error .badEscape

def skipText (steps : Nat) (cs : List Char) : Except Fault (List Char) :=
  match steps, cs with
  | 0, _ | _, [] => .error (.endedIn .text)
  | _ + 1, '"' :: rest => .ok rest
  | steps + 1, '\\' :: rest => do skipText steps (← skipEscape rest)
  | steps + 1, c :: rest => if c.toNat < 0x20 then .error .rawControl else skipText steps rest

def skipExponent (cs : List Char) : Except Fault (List Char) :=
  let cs := match cs with
    | '+' :: rest | '-' :: rest => rest
    | _ => cs
  if (cs.takeWhile Char.isDigit).isEmpty then .error .badNumber
  else .ok (cs.dropWhile Char.isDigit)

def skipNumber (cs : List Char) : Except Fault (List Char) :=
  let exponent (cs : List Char) : Except Fault (List Char) :=
    match cs with
    | 'e' :: rest | 'E' :: rest => skipExponent rest
    | _ => .ok cs
  match cs.takeWhile Char.isDigit with
  | [] | '0' :: _ :: _ => .error .badNumber
  | _ =>
    match cs.dropWhile Char.isDigit with
    | '.' :: rest =>
      if (rest.takeWhile Char.isDigit).isEmpty then .error .badNumber
      else exponent (rest.dropWhile Char.isDigit)
    | rest => exponent rest

mutual

def skipValue (steps : Nat) (cs : List Char) : Except Fault (List Char) :=
  match steps with
  | 0 => .error .tooDeep
  | steps + 1 =>
    match dropBlanks cs with
    | [] => .error (.endedIn .value)
    | 'n' :: rest => readWord ['u', 'l', 'l'] rest
    | 't' :: rest => readWord ['r', 'u', 'e'] rest
    | 'f' :: rest => readWord ['a', 'l', 's', 'e'] rest
    | '"' :: rest => skipText (rest.length + 1) rest
    | '-' :: rest => skipNumber rest
    | '[' :: rest =>
      match dropBlanks rest with
      | [] => .error (.endedIn .list)
      | ']' :: rest => .ok rest
      | rest => skipItems steps rest
    | '\x7b' :: rest =>
      match dropBlanks rest with
      | [] => .error (.endedIn .object)
      | '\x7d' :: rest => .ok rest
      | rest => skipMembers steps rest
    | c :: rest => if c.isDigit then skipNumber (c :: rest) else .error .noValue

def skipItems (steps : Nat) (cs : List Char) : Except Fault (List Char) :=
  match steps with
  | 0 => .error .tooDeep
  | steps + 1 => do
    match dropBlanks (← skipValue steps cs) with
    | [] => .error (.endedIn .list)
    | ']' :: rest => .ok rest
    | ',' :: rest => skipItems steps rest
    | _ => .error .noListSeparator

def skipMembers (steps : Nat) (cs : List Char) : Except Fault (List Char) :=
  match steps with
  | 0 => .error .tooDeep
  | steps + 1 => do
    match dropBlanks cs with
    | [] => .error (.endedIn .object)
    | '"' :: rest =>
      let rest ← readColon (← skipText (rest.length + 1) rest)
      match dropBlanks (← skipValue steps rest) with
      | [] => .error (.endedIn .object)
      | '\x7d' :: rest => .ok rest
      | ',' :: rest => skipMembers steps rest
      | _ => .error .noObjectSeparator
    | _ => .error .keyNotText

end

def stepsFor (cs : List Char) : Nat :=
  2 * cs.length + 2

/-- One more than the greatest nesting of containers. -/
def depthLimit : Nat := 128

def readEnd (cs : List Char) : Except Fault Unit :=
  if (dropBlanks cs).isEmpty then .ok () else .error .trailingText

def read (s : String) : Except Fault Json := do
  let (j, rest) ← readValue (stepsFor s.toList) depthLimit s.toList
  readEnd rest
  return j

def Num.phrase : Json.Num → String
  | .integer n => "integer `" ++ toString n.val ++ "`"
  | .float x => "floating point `" ++ Json.Num.write (.float x) ++ "`"

/-- The fault of finding another kind of value than the one that was wanted; a scalar is read, so
that it can be named, and may itself be faulty. -/
def wrongKindAt (wanted : String) (cs : List Char) : Fault :=
  let named (reading : Except Fault String) : Fault :=
    match reading with
    | .ok found => .wrongKind found wanted
    | .error fault => fault
  match cs with
  | 'n' :: rest => named ((readWord ['u', 'l', 'l'] rest).map fun _ => "null")
  | 't' :: rest => named ((readWord ['r', 'u', 'e'] rest).map fun _ => "boolean `true`")
  | 'f' :: rest => named ((readWord ['a', 'l', 's', 'e'] rest).map fun _ => "boolean `false`")
  | '"' :: rest => named ((readText rest).map fun (s, _) => "string " ++ shown (String.ofList s))
  | '-' :: rest => named ((readNumber true rest).map fun (n, _) => n.phrase)
  | '[' :: _ => .wrongKind "sequence" wanted
  | '\x7b' :: _ => .wrongKind "map" wanted
  | c :: rest =>
    if c.isDigit then named ((readNumber false (c :: rest)).map fun (n, _) => n.phrase)
    else .noValue
  | [] => .noValue

end StoreQuery.Json

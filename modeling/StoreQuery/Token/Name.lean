import StoreQuery.Text.Numeral
import StoreQuery.Token.Keyword

/-! # Names in query text

A plain name is made of segments with points between them. Any other name, and one that is a
keyword, is written between backticks, a backtick of the name being doubled.
-/

namespace StoreQuery

open Text

namespace Name

def isStart (c : Char) : Bool :=
  isAlphabetic c || c == '_'

def isPart (c : Char) : Bool :=
  isAlphanumeric c || c == '_'

theorem isPart_of_isStart {c : Char} (h : isStart c = true) : isPart c = true := by
  simp only [isStart, Bool.or_eq_true] at h
  rcases h with h | h
  · simp [isPart, isAlphanumeric_of_isAlphabetic h]
  · simp [isPart, h]

/-- Whether some characters are segments with points between them; `segmentStart` tells that the
next character begins a segment. -/
def isDotted : Bool → List Char → Bool
  | segmentStart, [] => !segmentStart
  | true, c :: cs => isStart c && isDotted false cs
  | false, c :: cs => if c = '.' then isDotted true cs else isPart c && isDotted false cs

/-- Whether a name can be written without backticks. -/
def isPlain (name : String) : Bool :=
  isDotted true name.toList && (Keyword.ofWord? name).isNone

def escape (c : Char) : List Char :=
  if c = '\x60' then ['\x60', '\x60'] else [c]

def render (name : String) : String :=
  if isPlain name then name
  else String.ofList ('\x60' :: (name.toList.flatMap escape ++ ['\x60']))

def renderList (names : List String) : String :=
  ", ".intercalate (names.map render)

end Name

end StoreQuery

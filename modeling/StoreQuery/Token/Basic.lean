import StoreQuery.Number.Layout
import StoreQuery.Text.Shown
import StoreQuery.Text.Span
import StoreQuery.Token.Keyword

/-! # Tokens of query text -/

namespace StoreQuery

open Number Text

inductive Symbol where
  | equal
  | less
  | lessEqual
  | greater
  | greaterEqual
  | minus
  | star
  | leftParen
  | rightParen
  | leftBrace
  | rightBrace
  | leftBracket
  | rightBracket
  | comma
  | colon
  | semicolon
  deriving DecidableEq, Repr

def Symbol.name : Symbol → String
  | equal => "Eq"
  | less => "Lt"
  | lessEqual => "LtEq"
  | greater => "Gt"
  | greaterEqual => "GtEq"
  | minus => "Minus"
  | star => "Star"
  | leftParen => "LeftParen"
  | rightParen => "RightParen"
  | leftBrace => "LeftBrace"
  | rightBrace => "RightBrace"
  | leftBracket => "LeftBracket"
  | rightBracket => "RightBracket"
  | comma => "Comma"
  | colon => "Colon"
  | semicolon => "Semicolon"

inductive LexicalFault where
  | openName
  | emptyName
  | noParameterName
  | noExponent
  | floatTooLarge
  | integerTooLarge
  | integerTooSmall
  | badEscape
  | openText
  | strange (c : Char)
  deriving DecidableEq, Repr

def LexicalFault.message : LexicalFault → String
  | openName => "Unterminated quoted identifier"
  | emptyName => "Empty quoted identifier"
  | noParameterName => "Expected parameter name after '@'"
  | noExponent => "Expected digits in float exponent"
  | floatTooLarge => "Float literal out of range"
  | integerTooLarge => "Invalid integer: number too large to fit in target type"
  | integerTooSmall => "Invalid integer: number too small to fit in target type"
  | badEscape => "Invalid escape sequence in string literal"
  | openText => "Unterminated string literal"
  | strange c => "Unexpected character: " ++ String.ofList [c]

/-- A token. Characters that are no token are one too, with the fault. -/
inductive Token where
  | integer (n : Int64)
  | float (x : Binary64.Finite)
  | text (s : String)
  | name (s : String)
  | parameter (s : String)
  | keyword (k : Keyword)
  | symbol (s : Symbol)
  | invalid (fault : LexicalFault)
  | eof
  deriving DecidableEq, Repr

def Token.describe : Token → String
  | integer n => "integer " ++ toString n.toInt
  | float x => "number " ++ String.ofList (Layout.message.writeFinite x)
  | text s => "string " ++ shown s
  | name s => "name `" ++ s ++ "`"
  | parameter s => "parameter @" ++ s
  | keyword k => "keyword `" ++ k.word ++ "`"
  | symbol s => s.name
  | invalid fault => fault.message
  | eof => "end of input"

structure Lexeme where
  token : Token
  span : Span
  deriving DecidableEq, Repr

end StoreQuery

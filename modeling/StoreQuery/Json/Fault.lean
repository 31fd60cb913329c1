/-! # Why a JSON text is refused

A text is refused because it ends too early, because it is no JSON, or because the document is not
of the kind that was asked for.
-/

namespace StoreQuery.Json

inductive Part where
  | value
  | list
  | object
  | text
  deriving DecidableEq, Repr

def Part.phrase : Part → String
  | value => "a value"
  | list => "a list"
  | object => "an object"
  | text => "a string"

inductive FaultClass where
  | ended
  | malformed
  | unfit
  deriving DecidableEq, Repr

inductive Fault where
  | endedIn (part : Part)
  | noColon
  | noListSeparator
  | noObjectSeparator
  | unknownWord
  | noValue
  | badEscape
  | badNumber
  | numberTooLarge
  | rawControl
  | keyNotText
  | loneSurrogate
  | halfSurrogate
  | trailingComma
  | trailingText
  | tooDeep
  | wrongKind (found wanted : String)
  | tooShort (count : Nat) (wanted : String)
  | missingField (name : String)
  | repeatedField (name : String)
  deriving DecidableEq, Repr

namespace Fault

def faultClass : Fault → FaultClass
  | endedIn _ => .ended
  | wrongKind .. | tooShort .. | missingField _ | repeatedField _ => .unfit
  | _ => .malformed

def message : Fault → String
  | endedIn part => "EOF while parsing " ++ part.phrase
  | noColon => "expected `:`"
  | noListSeparator => "expected `,` or `]`"
  | noObjectSeparator => "expected `,` or `\x7d`"
  | unknownWord => "expected ident"
  | noValue => "expected value"
  | badEscape => "invalid escape"
  | badNumber => "invalid number"
  | numberTooLarge => "number out of range"
  | rawControl => "control character (\\u0000-\\u001F) found while parsing a string"
  | keyNotText => "key must be a string"
  | loneSurrogate => "lone leading surrogate in hex escape"
  | halfSurrogate => "unexpected end of hex escape"
  | trailingComma => "trailing comma"
  | trailingText => "trailing characters"
  | tooDeep => "recursion limit exceeded"
  | wrongKind found wanted => "invalid type: " ++ found ++ ", expected " ++ wanted
  | tooShort count wanted => "invalid length " ++ toString count ++ ", expected " ++ wanted
  | missingField name => "missing field `" ++ name ++ "`"
  | repeatedField name => "duplicate field `" ++ name ++ "`"

end Fault

end StoreQuery.Json

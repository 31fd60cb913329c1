import StoreQuery.Grammar.Cursor
import StoreQuery.Query.Forming

/-! # Documents in query text

A JSON document is written with the tokens of query text, so its texts may stand in either kind of
quotes, and comments may stand between its parts. The number of containers that may be nested is
given with each rule.
-/

namespace StoreQuery.Grammar

open Rule

/-- The number after a minus that stands apart from it. -/
def negative : Rule Value := do
  match ← peek with
  | .integer n =>
    if n = Int64.minValue then fail .integerOutOfRange
    else
      advance
      pure (.int (-n))
  | .float x =>
    advance
    pure (.float (.finite x.neg))
  | _ => unexpected .number

def member (value : Rule Json) : Rule (String × Json) := do
  let key ← text
  symbol .colon
  let j ← value
  pure (key, j)

/-- The members of an object from the colon after its first key. -/
def objectFrom (key : String) (value : Rule Json) : Rule Json := do
  symbol .colon
  let j ← value
  let members ← further (.symbol .comma) (member value)
  symbol .rightBrace
  pure (Json.ofMembers ((key, j) :: members))

def objectBody (value : Rule Json) : Rule Json := do
  if ← accept (.symbol .rightBrace) then pure (.object [])
  else
    let key ← text
    objectFrom key value

def arrayBody (value : Rule Json) : Rule Json := do
  if ← accept (.symbol .rightBracket) then pure (.array [])
  else
    let items ← list value
    symbol .rightBracket
    pure (.array items)

def document : Nat → Rule Json
  | 0 => exhausted
  | depth + 1 => do
    match ← peek with
    | .text s =>
      advance
      pure (.text s)
    | .integer n =>
      advance
      pure (.ofInt64 n)
    | .float x =>
      advance
      pure (.ofFinite x)
    | .keyword .true =>
      advance
      pure (.bool true)
    | .keyword .false =>
      advance
      pure (.bool false)
    | .keyword .null =>
      advance
      pure .null
    | .symbol .minus =>
      advance
      let v ← negative
      pure v.toJson
    | .symbol .leftBrace =>
      advance
      objectBody (document depth)
    | .symbol .leftBracket =>
      advance
      arrayBody (document depth)
    | _ => unexpected .jsonValue

end StoreQuery.Grammar

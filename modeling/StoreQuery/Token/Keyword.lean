/-! # Keywords

The reserved words of the query language, in any mixture of upper and lower case. Units of time are
not among them, so they can still name fields.
-/

namespace StoreQuery

inductive Keyword where
  | select
  | insert
  | into
  | update
  | delete
  | fromWord
  | get
  | put
  | del
  | whereWord
  | and
  | or
  | not
  | inWord
  | between
  | like
  | order
  | byWord
  | asc
  | desc
  | skip
  | limit
  | true
  | false
  | null
  deriving DecidableEq, Repr

namespace Keyword

def word : Keyword → String
  | select => "select"
  | insert => "insert"
  | into => "into"
  | update => "update"
  | delete => "delete"
  | fromWord => "from"
  | get => "get"
  | put => "put"
  | del => "del"
  | whereWord => "where"
  | and => "and"
  | or => "or"
  | not => "not"
  | inWord => "in"
  | between => "between"
  | like => "like"
  | order => "order"
  | byWord => "by"
  | asc => "asc"
  | desc => "desc"
  | skip => "skip"
  | limit => "limit"
  | true => "true"
  | false => "false"
  | null => "null"

def all : List Keyword :=
  [select, insert, into, update, delete, fromWord, get, put, del, whereWord, and, or, not, inWord,
   between, like, order, byWord, asc, desc, skip, limit, true, false, null]

theorem mem_all (k : Keyword) : k ∈ all := by
  cases k <;> decide

/-- The keyword that a word is, the case of ASCII letters not mattering. -/
def ofWord? (s : String) : Option Keyword :=
  all.find? fun k => k.word.toList == s.toList.map Char.toLower

theorem ofWord?_word (k : Keyword) : ofWord? k.word = some k := by
  cases k <;> decide +kernel

end Keyword

end StoreQuery

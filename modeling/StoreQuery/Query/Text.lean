import StoreQuery.Query.Statement
import StoreQuery.Token.Name

/-! # Canonical query text

Every statement has one canonical text. Conditions are parenthesised only where the precedence of
`not`, `and` and `or` would read them otherwise; names are quoted only where a plain name would not
be read back.
-/

namespace StoreQuery

namespace Select

def renderPaging (skip limit : UInt64) : String :=
  (if 0 < skip then " skip " ++ toString skip.toNat else "") ++
    (if 0 < limit then " limit " ++ toString limit.toNat else "")

end Select

namespace SortKey

def render (s : SortKey) : String :=
  Name.render s.name ++ " " ++ s.direction.word

def renderClause : List SortKey → String
  | [] => ""
  | sorts => " order by " ++ ", ".intercalate (sorts.map render)

end SortKey

/-- Whether a part of a conjunction needs parentheses. -/
def Condition.isDisjunction : Condition → Bool
  | .any _ => true
  | _ => false

/-- Whether a negated condition needs parentheses. -/
def Condition.isJoined : Condition → Bool
  | .all _ | .any _ => true
  | _ => false

def Condition.enclose (needed : Bool) (text : String) : String :=
  if needed then "(" ++ text ++ ")" else text

mutual

def Operand.render : Operand → String
  | .literal v => v.render
  | .parameter n => "@" ++ n
  | .document j => j.compact
  | .list [] => "\x7b\x7d"
  | .list (x :: xs) => "\x7b" ++ x.render ++ Operand.renderItems xs ++ "\x7d"
  | .nested s => "(" ++ s.render ++ ")"

/-- The items after the first one, a comma and a blank before each. -/
def Operand.renderItems : List Operand → String
  | [] => ""
  | x :: xs => ", " ++ x.render ++ Operand.renderItems xs

/-- The values of an `in`: a list stands between parentheses there. -/
def Operand.renderChoices : Operand → String
  | .list [] => "()"
  | .list (x :: xs) => "(" ++ x.render ++ Operand.renderItems xs ++ ")"
  | .literal v => v.render
  | .parameter n => "@" ++ n
  | .document j => j.compact
  | .nested s => "(" ++ s.render ++ ")"

def Condition.render : Condition → String
  | .compare n c v => Name.render n ++ " " ++ c.render ++ " " ++ v.render
  | .within n v => Name.render n ++ " in " ++ v.renderChoices
  | .between n low high =>
    Name.render n ++ " between " ++ low.render ++ " and " ++ high.render
  | .all [] => ""
  | .all (c :: cs) => Condition.enclose c.isDisjunction c.render ++ Condition.renderAnd cs
  | .any [] => ""
  | .any (c :: cs) => c.render ++ Condition.renderOr cs
  | .not c => "not " ++ Condition.enclose c.isJoined c.render

def Condition.renderAnd : List Condition → String
  | [] => ""
  | c :: cs => " and " ++ Condition.enclose c.isDisjunction c.render ++ Condition.renderAnd cs

def Condition.renderOr : List Condition → String
  | [] => ""
  | c :: cs => " or " ++ c.render ++ Condition.renderOr cs

def Condition.renderClause : Option Condition → String
  | none => ""
  | some c => " where " ++ c.render

def Select.render : Select → String
  | ⟨entity, fields, condition, sorts, skip, limit⟩ =>
    "select " ++ (if fields.isEmpty then "*" else Name.renderList fields) ++ " from " ++
      Name.render entity ++ Condition.renderClause condition ++ SortKey.renderClause sorts ++
      Select.renderPaging skip limit

end

def Operand.renderList : List Operand → String
  | [] => ""
  | x :: xs => x.render ++ Operand.renderItems xs

def Payload.render : Payload → String
  | assignments conditions => "(" ++ ", ".intercalate (conditions.map Condition.render) ++ ")"
  | document v => v.render

def Delete.render (s : Delete) : String :=
  "delete " ++ (if s.fields.isEmpty then "" else Name.renderList s.fields ++ " ") ++ "from " ++
    Name.render s.entity ++ Condition.renderClause s.condition

namespace Statement

def render : Statement → String
  | select s => s.render
  | insert s =>
    "insert " ++ Name.render s.entity ++ " " ++ s.payload.render ++
      (match s.ttl with
        | some t => " " ++ t.render
        | none => "")
  | update s => "update " ++ Name.render s.entity ++ " " ++ s.payload.render
  | delete s => s.render
  | get keys => "get " ++ Operand.renderList keys
  | put s =>
    "put \x7b" ++ s.key.render ++ ", " ++ s.value.render ++
      (match s.ttl with
        | some t => ", " ++ t.render
        | none => "") ++ "\x7d"
  | del keys => "del " ++ Operand.renderList keys

end Statement

end StoreQuery

import StoreQuery.Json.Basic
import StoreQuery.Number.Layout
import StoreQuery.Text.Quoted

/-! # Writing JSON documents

`Json.compact` writes a document without blanks; `Json.indented` writes one item or member a line.
Members are written in the order in which they stand.
-/

namespace StoreQuery

open Number Text

namespace Json

def Num.write : Json.Num → String
  | .integer n => toString n.val
  | .float x => String.ofList (Layout.json.writeFinite x)

mutual

def compact : Json → String
  | null => "null"
  | bool b => toString b
  | number n => n.write
  | text s => quote s
  | array [] => "[]"
  | array (x :: xs) => "[" ++ compact x ++ compactItems xs ++ "]"
  | object [] => "\x7b\x7d"
  | object ((k, x) :: ms) => "\x7b" ++ quote k ++ ":" ++ compact x ++ compactMembers ms ++ "\x7d"

/-- The items after the first one, a comma before each. -/
def compactItems : List Json → String
  | [] => ""
  | x :: xs => "," ++ compact x ++ compactItems xs

def compactMembers : List (String × Json) → String
  | [] => ""
  | (k, x) :: ms => "," ++ quote k ++ ":" ++ compact x ++ compactMembers ms

end

def lineBreak (depth : Nat) : String :=
  String.ofList ('\n' :: List.replicate (2 * depth) ' ')

mutual

/-- A document at a depth, each level being indented by two blanks. -/
def indentedAt : Nat → Json → String
  | _, null => "null"
  | _, bool b => toString b
  | _, number n => n.write
  | _, text s => quote s
  | _, array [] => "[]"
  | depth, array (x :: xs) =>
    "[" ++ lineBreak (depth + 1) ++ indentedAt (depth + 1) x ++ indentedItems (depth + 1) xs ++
      lineBreak depth ++ "]"
  | _, object [] => "\x7b\x7d"
  | depth, object ((k, x) :: ms) =>
    "\x7b" ++ lineBreak (depth + 1) ++ quote k ++ ": " ++ indentedAt (depth + 1) x ++
      indentedMembers (depth + 1) ms ++ lineBreak depth ++ "\x7d"

def indentedItems : Nat → List Json → String
  | _, [] => ""
  | depth, x :: xs => "," ++ lineBreak depth ++ indentedAt depth x ++ indentedItems depth xs

def indentedMembers : Nat → List (String × Json) → String
  | _, [] => ""
  | depth, (k, x) :: ms =>
    "," ++ lineBreak depth ++ quote k ++ ": " ++ indentedAt depth x ++ indentedMembers depth ms

end

def indented (j : Json) : String :=
  indentedAt 0 j

end Json

end StoreQuery

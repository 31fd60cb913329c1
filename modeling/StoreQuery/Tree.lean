import StoreQuery.Text.Shown

/-! # Trees as text

A tree of named nodes is written on one line, or with every part on a line of its own and four
blanks for each level.
-/

namespace StoreQuery

open Text

/-- What stands around the parts of a node. On one line, named fields have blanks inside their
braces. -/
inductive Bracket where
  | round
  | square
  | curly
  | fields
  deriving DecidableEq, Repr

namespace Bracket

def opening : Bracket → String
  | round => "("
  | square => "["
  | curly => "\x7b"
  | fields => " \x7b"

def closing : Bracket → String
  | round => ")"
  | square => "]"
  | curly | fields => "\x7d"

def margin : Bracket → String
  | fields => " "
  | _ => ""

end Bracket

/-- A tree. Each part of a node has a label in front of it, which may be empty. -/
inductive Tree where
  | leaf (text : String)
  | node (name : String) (bracket : Bracket) (parts : List (String × Tree))
  deriving Inhabited

namespace Tree

def ofText (s : String) : Tree := leaf (shown s)

def ofNat (n : Nat) : Tree := leaf (toString n)

def wrap (name : String) (part : Tree) : Tree :=
  node name .round [("", part)]

def list (parts : List Tree) : Tree :=
  node "" .square (parts.map fun t => ("", t))

def record (name : String) (parts : List (String × Tree)) : Tree :=
  node name .fields (parts.map fun (label, t) => (label ++ ": ", t))

def ofOption {α : Type} (toTree : α → Tree) : Option α → Tree
  | some a => wrap "Some" (toTree a)
  | none => leaf "None"

mutual

def flat : Tree → String
  | leaf text => text
  | node name bracket [] => name ++ bracket.opening ++ bracket.closing
  | node name bracket ((label, t) :: parts) =>
    name ++ bracket.opening ++ bracket.margin ++ label ++ flat t ++ flatParts parts ++
      bracket.margin ++ bracket.closing

def flatParts : List (String × Tree) → String
  | [] => ""
  | (label, t) :: parts => ", " ++ label ++ flat t ++ flatParts parts

end

def lineStart (level : Nat) : String :=
  "\n" ++ String.ofList (List.replicate (4 * level) ' ')

mutual

def indentedAt (level : Nat) : Tree → String
  | leaf text => text
  | node name bracket [] => name ++ bracket.opening ++ bracket.closing
  | node name bracket parts =>
    name ++ bracket.opening ++ indentedParts (level + 1) parts ++ lineStart level ++
      bracket.closing

def indentedParts (level : Nat) : List (String × Tree) → String
  | [] => ""
  | (label, t) :: parts =>
    lineStart level ++ label ++ indentedAt level t ++ "," ++ indentedParts level parts

end

def indented (t : Tree) : String :=
  indentedAt 0 t

end Tree

end StoreQuery

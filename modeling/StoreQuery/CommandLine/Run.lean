import StoreQuery.CommandLine.Arguments
import StoreQuery.Grammar.Statement
import StoreQuery.Query.Json
import StoreQuery.Query.Tree

/-! # Commands

A command reads a whole script before it prints anything, and then prints each statement: its tree
or its document, its canonical text, or its parameters.
-/

namespace StoreQuery.CommandLine

inductive Failure where
  | unreadableFile (path : String)
  | unreadableInput
  | refused (text : String) (e : QueryError)

/-- The message of a failure. An error of the grammar is given with its line and column. -/
def Failure.message : Failure → String
  | unreadableFile path => "failed to read " ++ path
  | unreadableInput => "failed to read standard input"
  | refused text (.grammar e) =>
    let (line, column) := e.span.lineColumn text.toList
    (QueryError.grammar e).message ++ " (line " ++ toString line ++ ", column " ++
      toString column ++ ")"
  | refused _ e => e.message

def Command.print (s : Statement) : Command → String
  | parse true => s.toJson.indented ++ "\n"
  | parse false => s.toTree.indented ++ "\n"
  | format => s.render ++ "\n"
  | params => s.kind.word ++ ": " ++ ", ".intercalate (s.parameters.map ("@" ++ ·)) ++ "\n"

def Command.run (c : Command) (text : String) : Except Failure String :=
  match (Grammar.parseScript text).result with
  | .ok statements => .ok (String.join (statements.map fun s => c.print s))
  | .error e => .error (.refused text e)

/-- The text of a source, given the bytes of a file or of the standard input if there are any. -/
def Source.text (bytes : Option ByteArray) : Source → Except Failure String
  | inline text => .ok text
  | file path =>
    match bytes.bind String.fromUTF8? with
    | some text => .ok text
    | none => .error (.unreadableFile path)
  | standardInput =>
    match bytes.bind String.fromUTF8? with
    | some text => .ok text
    | none => .error .unreadableInput

def Invocation.run (i : Invocation) (bytes : Option ByteArray) : Except Failure String := do
  i.command.run (← i.source.text bytes)

end StoreQuery.CommandLine

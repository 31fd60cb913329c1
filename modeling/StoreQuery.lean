import StoreQuery.CommandLine.Arguments
import StoreQuery.CommandLine.Run
import StoreQuery.Entity
import StoreQuery.Error
import StoreQuery.Grammar.Cursor
import StoreQuery.Grammar.Document
import StoreQuery.Grammar.Statement
import StoreQuery.Json.Basic
import StoreQuery.Json.Fault
import StoreQuery.Json.Printer
import StoreQuery.Json.Reader
import StoreQuery.Main
import StoreQuery.Number.Binary64
import StoreQuery.Number.Decimal
import StoreQuery.Number.Layout
import StoreQuery.Number.Reading
import StoreQuery.Number.Rounding
import StoreQuery.Parameters
import StoreQuery.Proofs.CommandLine.Formatting
import StoreQuery.Proofs.Entity
import StoreQuery.Proofs.Entity.Building
import StoreQuery.Proofs.Entity.Document
import StoreQuery.Proofs.Grammar.Acceptance
import StoreQuery.Proofs.Grammar.Completeness
import StoreQuery.Proofs.Grammar.Completeness.Statements
import StoreQuery.Proofs.Grammar.Completeness.Values
import StoreQuery.Proofs.Grammar.Data
import StoreQuery.Proofs.Grammar.Derivation
import StoreQuery.Proofs.Grammar.Descent
import StoreQuery.Proofs.Grammar.ErrorPosition
import StoreQuery.Proofs.Grammar.Mentions
import StoreQuery.Proofs.Grammar.Numerals
import StoreQuery.Proofs.Grammar.Passing
import StoreQuery.Proofs.Grammar.Pieces
import StoreQuery.Proofs.Grammar.Places
import StoreQuery.Proofs.Grammar.Progress
import StoreQuery.Proofs.Grammar.Reading
import StoreQuery.Proofs.Grammar.Refusal
import StoreQuery.Proofs.Grammar.Registration
import StoreQuery.Proofs.Grammar.Rendering
import StoreQuery.Proofs.Grammar.Row
import StoreQuery.Proofs.Grammar.Script
import StoreQuery.Proofs.Grammar.Soundness
import StoreQuery.Proofs.Grammar.Soundness.Values
import StoreQuery.Proofs.Grammar.Spelling
import StoreQuery.Proofs.Grammar.Termination
import StoreQuery.Proofs.Grammar.Trail
import StoreQuery.Proofs.Json.Printed
import StoreQuery.Proofs.Number.Nearest
import StoreQuery.Proofs.Number.Shortest
import StoreQuery.Proofs.Parameters
import StoreQuery.Proofs.Parameters.History
import StoreQuery.Proofs.Provider.Registry
import StoreQuery.Proofs.Query.Binding
import StoreQuery.Proofs.Query.BuiltText
import StoreQuery.Proofs.Query.CallFaults
import StoreQuery.Proofs.Query.Canonical
import StoreQuery.Proofs.Query.ChainFaults
import StoreQuery.Proofs.Query.ChainReading
import StoreQuery.Proofs.Query.ChainText
import StoreQuery.Proofs.Query.Choices
import StoreQuery.Proofs.Query.Document
import StoreQuery.Proofs.Query.Drafts
import StoreQuery.Proofs.Query.Flat
import StoreQuery.Proofs.Query.Identified
import StoreQuery.Proofs.Query.Injection
import StoreQuery.Proofs.Query.Keys
import StoreQuery.Proofs.Query.Kinds
import StoreQuery.Proofs.Query.Lifetime
import StoreQuery.Proofs.Query.Literals
import StoreQuery.Proofs.Query.Native
import StoreQuery.Proofs.Query.Normal
import StoreQuery.Proofs.Query.Parentheses
import StoreQuery.Proofs.Query.Readable
import StoreQuery.Proofs.Query.Rebuild
import StoreQuery.Proofs.Query.Same
import StoreQuery.Proofs.Query.Substitution
import StoreQuery.Proofs.Sequence
import StoreQuery.Proofs.Store.Dispatch
import StoreQuery.Proofs.Store.Features
import StoreQuery.Proofs.Store.Lifecycle
import StoreQuery.Proofs.Store.Outcome
import StoreQuery.Proofs.Store.Payloads
import StoreQuery.Proofs.Store.Recording
import StoreQuery.Proofs.Store.Writing
import StoreQuery.Proofs.Text.Bytes
import StoreQuery.Proofs.Text.Position
import StoreQuery.Proofs.Token.Encoding
import StoreQuery.Proofs.Token.Ending
import StoreQuery.Proofs.Token.Layout
import StoreQuery.Proofs.Token.Literal
import StoreQuery.Proofs.Token.Naming
import StoreQuery.Proofs.Token.Piece
import StoreQuery.Proofs.Token.Recasing
import StoreQuery.Proofs.Token.Slice
import StoreQuery.Proofs.Token.Slice.Plain
import StoreQuery.Proofs.Token.Slice.Quoted
import StoreQuery.Proofs.Token.Stream
import StoreQuery.Proofs.Token.Tiling
import StoreQuery.Proofs.Token.Turns
import StoreQuery.Proofs.Token.Whole
import StoreQuery.Proofs.Token.Writing
import StoreQuery.Provider.Memory
import StoreQuery.Provider.Registry
import StoreQuery.Provider.Settings
import StoreQuery.Query.Binding
import StoreQuery.Query.Call
import StoreQuery.Query.Chain
import StoreQuery.Query.Condition
import StoreQuery.Query.Draft
import StoreQuery.Query.Forming
import StoreQuery.Query.Json
import StoreQuery.Query.Lifetime
import StoreQuery.Query.Statement
import StoreQuery.Query.Text
import StoreQuery.Query.Tree
import StoreQuery.Sample.God
import StoreQuery.Store.Basic
import StoreQuery.Store.Capability
import StoreQuery.Store.Chain
import StoreQuery.Store.Dispatch
import StoreQuery.Store.Matching
import StoreQuery.Store.Memory
import StoreQuery.Store.Outcome
import StoreQuery.Store.Prepared
import StoreQuery.Store.Record
import StoreQuery.Store.Scripted
import StoreQuery.Text.Alphabetic
import StoreQuery.Text.Blank
import StoreQuery.Text.CharSet
import StoreQuery.Text.Hidden
import StoreQuery.Text.Numeral
import StoreQuery.Text.Quoted
import StoreQuery.Text.Shown
import StoreQuery.Text.Span
import StoreQuery.Token.Basic
import StoreQuery.Token.Keyword
import StoreQuery.Token.Name
import StoreQuery.Token.Scan
import StoreQuery.Tree
import StoreQuery.Value

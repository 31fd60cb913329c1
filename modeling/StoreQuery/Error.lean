import StoreQuery.Json.Fault
import StoreQuery.Query.Text
import StoreQuery.Store.Capability
import StoreQuery.Token.Basic

/-! # Errors

Every cause of failure is a constructor; `QueryError.message` holds all of the wording.
-/

namespace StoreQuery

inductive Expectation where
  | statement
  | endOfInput
  | separator
  | keyword (k : Keyword)
  | symbol (s : Symbol)
  | name
  | text
  | integer
  | number
  | value
  | jsonValue
  | payload
  | operator
  | timeUnit
  deriving DecidableEq, Repr

def Expectation.phrase : Expectation → String
  | statement => "select, insert, update, delete, get, put or del"
  | endOfInput => "end of input"
  | separator => "';' or end of input"
  | keyword k => k.word
  | symbol s => s.name
  | name => "name"
  | text => "string"
  | integer => "integer"
  | number => "number"
  | value => "value"
  | jsonValue => "JSON value"
  | payload => "assignments or JSON payload"
  | operator => "comparison operator, in or between"
  | timeUnit => "time unit"

inductive GrammarFault where
  | unexpected (wanted : Expectation) (found : Token)
  | integerOutOfRange
  | negativeCount
  | lifetimeOutOfRange
  deriving DecidableEq, Repr

def GrammarFault.message : GrammarFault → String
  | unexpected wanted .eof => "Unexpected end of input: expected " ++ wanted.phrase
  | unexpected _ (.invalid fault) => fault.message
  | unexpected wanted found => "Expected " ++ wanted.phrase ++ ", found " ++ found.describe
  | integerOutOfRange => "Integer literal out of range"
  | negativeCount => "Expected a non-negative integer"
  | lifetimeOutOfRange => "Time to live is out of range"

structure GrammarError where
  fault : GrammarFault
  span : Span
  deriving DecidableEq, Repr

def GrammarError.message (e : GrammarError) : String :=
  e.fault.message ++ " at position " ++ toString e.span.start ++ ".." ++ toString e.span.stop

inductive MeaningFault where
  | noComparison (operator : Operator)
  | noChoices (name : String)
  | notTwoBounds (name : String)
  | emptyConjunction
  | emptyDisjunction
  | twoPayloads
  | noPayload
  | valueOfSelect
  | payloadNoObject
  | noAssignment (condition : Condition)
  | noEcho
  | unfitRecord (message : String)

def MeaningFault.message : MeaningFault → String
  | noComparison operator => "`" ++ operator.render ++ "` is not a comparison operator"
  | noChoices name => "`in` on `" ++ name ++ "` requires a non-empty list of values"
  | notTwoBounds name => "`between` on `" ++ name ++ "` requires exactly two values"
  | emptyConjunction => "`and` requires at least one condition"
  | emptyDisjunction => "`or` requires at least one condition"
  | twoPayloads => "a payload takes either assignments or a JSON value, not both"
  | noPayload => "a payload requires assignments or a JSON value"
  | valueOfSelect => "a nested select has no value outside its backend"
  | payloadNoObject => "a JSON payload must be an object"
  | noAssignment condition => "`" ++ condition.render ++ "` is not an assignment"
  | noEcho => "backend echoed no entity"
  | unfitRecord message => message

inductive NameRole where
  | projectedField
  | entity
  | conditionField
  | orderField
  deriving DecidableEq, Repr

def NameRole.phrase : NameRole → String
  | projectedField => "projected field"
  | entity => "entity"
  | conditionField => "condition field"
  | orderField => "order field"

inductive ArgumentFault where
  | emptyName (role : NameRole)
  | notFinite
  | noFieldPending
  | recordWithoutEntity
  | recordWithoutFields (entity : String)
  deriving DecidableEq, Repr

def ArgumentFault.message : ArgumentFault → String
  | emptyName role => role.phrase ++ " name must not be empty"
  | notFinite => "numbers in a query must be finite"
  | noFieldPending => "no field name awaits a predicate"
  | recordWithoutEntity => "a record must name its entity"
  | recordWithoutFields entity => "a `" ++ entity ++ "` record has no fields to write"

inductive QueryError where
  | grammar (e : GrammarError)
  | meaning (fault : MeaningFault)
  | unknownParameter (name : String)
  | unresolvedParameter (name : String)
  | alreadyBound (name : String)
  | notUnique
  | unsupported (capability : Capability)
  | argument (fault : ArgumentFault)
  | alreadyExecuted
  | unknownProvider (tag : String)
  | alreadyInstalled
  | settings (fault : Json.Fault)
  | store (message : String)

def QueryError.message : QueryError → String
  | grammar e => "Syntax error: " ++ e.message
  | meaning fault => "Semantic error: " ++ fault.message
  | unknownParameter name => "Unknown parameter: @" ++ name
  | unresolvedParameter name => "Unresolved parameter: @" ++ name
  | alreadyBound name => "Parameter already bound: @" ++ name
  | notUnique => "Expected at most one result, found more"
  | unsupported capability => "Unsupported capability: " ++ capability.phrase
  | argument fault => "Precondition violated: " ++ fault.message
  | alreadyExecuted => "Prepared statement was already executed"
  | unknownProvider tag => "Unknown provider: " ++ tag
  | alreadyInstalled => "Provider registry is already installed"
  | settings fault => "Configuration error: " ++ fault.message
  | store message => message

end StoreQuery

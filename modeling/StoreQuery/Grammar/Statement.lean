import StoreQuery.Grammar.Document
import StoreQuery.Query.Binding
import StoreQuery.Token.Scan

/-! # The grammar of statements

`not` binds tighter than `and`, and `and` tighter than `or`; each of the two joins from the left.
Operands, conditions and selects are nested in each other, and every rule for them is given the
number of rules that may still be nested in it.
-/

namespace StoreQuery.Grammar

open Rule

def comparison? : Token → Option Comparison
  | .symbol .equal => some .equal
  | .symbol .greater => some .greater
  | .symbol .greaterEqual => some .greaterOrEqual
  | .symbol .less => some .less
  | .symbol .lessEqual => some .lessOrEqual
  | .keyword .like => some .like
  | _ => none

def startsValue : Token → Bool
  | .text _ | .integer _ | .float _ | .parameter _ => true
  | .symbol .minus | .symbol .leftBrace | .symbol .leftBracket | .symbol .leftParen => true
  | .keyword .true | .keyword .false | .keyword .null => true
  | _ => false

/-- The fields of a statement up to `from`; a star, or none at all, means every field. -/
def fields : Rule (List String) := do
  if ← accept (.symbol .star) then pure []
  else if (← peek) = .keyword .fromWord then pure []
  else list name

def sortKey : Rule SortKey := do
  let field ← name
  if ← accept (.keyword .desc) then pure ⟨field, .desc⟩
  else
    let _ ← accept (.keyword .asc)
    pure ⟨field, .asc⟩

def ordering : Rule (List SortKey) := do
  if ← accept (.keyword .order) then
    keyword .byWord
    list sortKey
  else pure []

def clauseCount (k : Keyword) : Rule (Option UInt64) := do
  if ← accept (.keyword k) then
    let n ← count
    pure (some n)
  else pure none

/-- The skip and the limit, in either order, each at most once. -/
def paging : Rule (UInt64 × UInt64) := do
  match ← clauseCount .skip with
  | some skip =>
    let limit ← clauseCount .limit
    pure (skip, limit.getD 0)
  | none =>
    match ← clauseCount .limit with
    | some limit =>
      let skip ← clauseCount .skip
      pure (skip.getD 0, limit)
    | none => pure (0, 0)

mutual

def value : Nat → Rule Operand
  | 0 => exhausted
  | depth + 1 => do
    match ← peek with
    | .text s =>
      advance
      pure (.literal (.text s))
    | .integer n =>
      advance
      pure (.literal (.int n))
    | .float x =>
      advance
      pure (.literal (.float (.finite x)))
    | .keyword .true =>
      advance
      pure (.literal (.bool true))
    | .keyword .false =>
      advance
      pure (.literal (.bool false))
    | .keyword .null =>
      advance
      pure (.literal .null)
    | .parameter p =>
      mention p
      advance
      pure (.parameter p)
    | .symbol .minus =>
      advance
      let v ← negative
      pure (.literal v)
    | .symbol .leftBrace =>
      advance
      braces depth
    | .symbol .leftBracket =>
      let j ← document (depth + 1)
      pure (.document j)
    | .symbol .leftParen =>
      advance
      let s ← select depth
      symbol .rightParen
      pure (.nested s)
    | _ => unexpected .value

/-- The rest of a value that begins with a brace: an object if it is empty or begins with a text and
a colon, and a list otherwise. -/
def braces : Nat → Rule Operand
  | 0 => exhausted
  | depth + 1 => do
    match ← peek with
    | .text s =>
      advance
      if (← peek) = .symbol .colon then
        let j ← objectFrom s (document depth)
        pure (.document j)
      else
        let items ← further (.symbol .comma) (value depth)
        symbol .rightBrace
        pure (.list (.literal (.text s) :: items))
    | .symbol .rightBrace =>
      advance
      pure (.document (.object []))
    | _ =>
      let items ← list (value depth)
      symbol .rightBrace
      pure (.list items)

def select : Nat → Rule Select
  | 0 => exhausted
  | depth + 1 => do
    keyword .select
    let projection ← fields
    keyword .fromWord
    let entity ← name
    let condition ← filter depth
    let sorts ← ordering
    let (skip, limit) ← paging
    pure ⟨entity, projection, condition, sorts, skip, limit⟩

def filter : Nat → Rule (Option Condition)
  | 0 => exhausted
  | depth + 1 => do
    if ← accept (.keyword .whereWord) then
      let c ← disjunction depth
      pure (some c)
    else pure none

def disjunction : Nat → Rule Condition
  | 0 => exhausted
  | depth + 1 => do
    let first ← conjunction depth
    let others ← further (.keyword .or) (conjunction depth)
    pure (others.foldl Condition.or first)

def conjunction : Nat → Rule Condition
  | 0 => exhausted
  | depth + 1 => do
    let first ← unary depth
    let others ← further (.keyword .and) (unary depth)
    pure (others.foldl Condition.and first)

def unary : Nat → Rule Condition
  | 0 => exhausted
  | depth + 1 => do
    if ← accept (.keyword .not) then
      let c ← unary depth
      pure (.not c)
    else if ← accept (.symbol .leftParen) then
      let c ← disjunction depth
      symbol .rightParen
      pure c
    else
      let field ← name
      test depth field

def test : Nat → String → Rule Condition
  | 0, _ => exhausted
  | depth + 1, field => do
    if ← accept (.keyword .inWord) then
      let values ← choices depth
      formed (Condition.withinOf field values)
    else if ← accept (.keyword .between) then
      let low ← value depth
      keyword .and
      let high ← value depth
      pure (.between field low high)
    else
      match comparison? (← peek) with
      | some c =>
        advance
        let v ← value depth
        pure (.compare field c v)
      | none => unexpected .operator

/-- The values of an `in`: a list or a select between parentheses, or any single value. -/
def choices : Nat → Rule Operand
  | 0 => exhausted
  | depth + 1 => do
    if ← accept (.symbol .leftParen) then
      if (← peek) = .keyword .select then
        let s ← select depth
        symbol .rightParen
        pure (.nested s)
      else
        let items ← list (value depth)
        symbol .rightParen
        pure (.list items)
    else value depth

end

def keysUpTo (depth : Nat) : Nat → Rule (List Operand)
  | 0 => exhausted
  | limit + 1 => do
    if ← accept (.symbol .comma) then
      let x ← value depth
      let xs ← keysUpTo depth limit
      pure (x :: xs)
    else if startsValue (← peek) then
      let x ← value depth
      let xs ← keysUpTo depth limit
      pure (x :: xs)
    else pure []

/-- The keys of a statement; the commas between them may be left out. -/
def keys (depth : Nat) : Rule (List Operand) := do
  let x ← value depth
  let xs ← fun c => keysUpTo depth (c.rest.length + 1) c
  pure (x :: xs)

def assignment (depth : Nat) : Rule Condition := do
  let field ← name
  symbol .equal
  let v ← value depth
  pure (.compare field .equal v)

def assignments (depth : Nat) : Rule (Option (List Condition)) := do
  if ← accept (.symbol .leftParen) then
    let conditions ← list (assignment depth)
    symbol .rightParen
    pure (some conditions)
  else pure none

/-- A document as a payload, where there is one: an object, a list or a parameter. -/
def payloadDocument (depth : Nat) : Rule (Option Operand) := do
  match ← peek with
  | .symbol .leftBrace =>
    advance
    let j ← objectBody (document depth)
    pure (some (.document j))
  | .symbol .leftBracket =>
    let j ← document depth
    pure (some (.document j))
  | .parameter _ =>
    let v ← value depth
    pure (some v)
  | _ => pure none

def payload (depth : Nat) : Rule Payload := do
  let conditions ← assignments depth
  let operand ← payloadDocument depth
  if conditions.isNone && operand.isNone then unexpected .payload
  else formed (Payload.ofParts conditions operand)

def lifetime : Rule Lifetime := do
  let amount ← count
  match ← peek with
  | .name word =>
    match TimeUnit.ofWord? word with
    | some unit =>
      match Lifetime.ofAmount? amount.toNat unit with
      | some t =>
        advance
        pure t
      | none => fail .lifetimeOutOfRange
    | none => unexpected .timeUnit
  | _ => unexpected .timeUnit

def insertInto (depth : Nat) : Rule Insert := do
  let entity ← name
  let payload ← payload depth
  match ← peek with
  | .integer _ =>
    let t ← lifetime
    pure ⟨entity, payload, some t⟩
  | _ => pure ⟨entity, payload, none⟩

def insert (depth : Nat) : Rule Insert := do
  let _ ← accept (.keyword .into)
  insertInto depth

def update (depth : Nat) : Rule Update := do
  let entity ← name
  let payload ← payload depth
  pure ⟨entity, payload⟩

def delete (depth : Nat) : Rule Delete := do
  let projection ← fields
  keyword .fromWord
  let entity ← name
  let condition ← filter depth
  pure ⟨entity, projection, condition⟩

def put (depth : Nat) : Rule Put := do
  symbol .leftBrace
  let key ← value depth
  symbol .comma
  let v ← value depth
  let ttl ← do
    if ← accept (.symbol .comma) then
      let t ← lifetime
      pure (some t)
    else pure none
  symbol .rightBrace
  pure ⟨key, v, ttl⟩

def body (depth : Nat) : Rule Statement := do
  match ← peek with
  | .keyword .select =>
    let s ← select depth
    pure (.select s)
  | .keyword .insert =>
    advance
    let s ← insert depth
    pure (.insert s)
  | .keyword .update =>
    advance
    let s ← update depth
    pure (.update s)
  | .keyword .delete =>
    advance
    let s ← delete depth
    pure (.delete s)
  | .keyword .get =>
    advance
    let ks ← keys depth
    pure (.get ks)
  | .keyword .put =>
    advance
    let s ← put depth
    pure (.put s)
  | .keyword .del =>
    advance
    let ks ← keys depth
    pure (.del ks)
  | _ => unexpected .statement

/-- A single statement and at most one semicolon. -/
def statement (depth : Nat) : Rule Statement := do
  let s ← body depth
  let _ ← accept (.symbol .semicolon)
  if (← peek) = .eof then pure s else unexpected .endOfInput

/-- Statements with semicolons between them, in at most `limit` rounds. A round passes a semicolon
or reads a statement. -/
def scriptUpTo (depth : Nat) : Nat → Rule (List Statement)
  | 0 => exhausted
  | limit + 1 => do
    if ← accept (.symbol .semicolon) then scriptUpTo depth limit
    else if (← peek) = .eof then pure []
    else
      let s ← body depth
      let t ← peek
      if t = .symbol .semicolon ∨ t = .eof then
        let ss ← scriptUpTo depth limit
        pure (s :: ss)
      else unexpected .separator

def script (depth : Nat) : Rule (List Statement) :=
  fun c => scriptUpTo depth (c.rest.length + 1) c

/-- How a reading of a text ends, and the parameters that it met, each once. -/
structure Reading (α : Type) where
  result : Except QueryError α
  parameters : List String

/-- The nesting of rules that some tokens can need: no rule is nested more than three deep in
another without a token of its own. -/
def nesting (lexemes : List Lexeme) : Nat :=
  4 * lexemes.length + 8

/-- A rule applied to all of a text. -/
def Rule.run {α : Type} (rule : Nat → Rule α) (text : String) : Reading α :=
  let lexemes := Lexeme.scan text
  match rule (nesting lexemes) (.start lexemes) with
  | .done a c => ⟨.ok a, distinct c.mentioned⟩
  | .failed e c => ⟨.error e, distinct c.mentioned⟩
  | .exhausted => ⟨.error (.grammar ⟨.unexpected .endOfInput .eof, .point 0⟩), []⟩

def parseStatement (text : String) : Reading Statement :=
  Rule.run statement text

def parseScript (text : String) : Reading (List Statement) :=
  Rule.run script text

end StoreQuery.Grammar

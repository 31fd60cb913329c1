import StoreQuery.Error

/-! # Rules of the grammar

A rule reads tokens from a cursor. It ends with a result, with an error, or without either when the
nesting it allows is used up; an error keeps the cursor at the token that caused it.
-/

namespace StoreQuery.Grammar

structure Cursor where
  /-- The tokens that are left. -/
  rest : List Lexeme
  /-- Where the last token that was taken ends. -/
  place : Nat
  /-- The parameters met so far, as often as they were met. -/
  mentioned : List String

namespace Cursor

def start (lexemes : List Lexeme) : Cursor :=
  ⟨lexemes, 0, []⟩

def token (c : Cursor) : Token :=
  match c.rest with
  | [] => .eof
  | l :: _ => l.token

/-- Where an error at the cursor is. A text that ends too early is at fault where its last token
ends, not after the blanks that follow. -/
def span (c : Cursor) : Span :=
  match c.rest with
  | [] => .point c.place
  | l :: _ => l.span

def next (c : Cursor) : Cursor :=
  match c.rest with
  | [] => c
  | l :: rest => ⟨rest, l.span.stop, c.mentioned⟩

end Cursor

inductive Reply (α : Type) where
  | done (result : α) (cursor : Cursor)
  | failed (error : QueryError) (cursor : Cursor)
  | exhausted

def Rule (α : Type) := Cursor → Reply α

namespace Rule

variable {α β : Type}

protected def pure (a : α) : Rule α :=
  fun c => .done a c

protected def bind (r : Rule α) (f : α → Rule β) : Rule β :=
  fun c =>
    match r c with
    | .done a c => f a c
    | .failed e c => .failed e c
    | .exhausted => .exhausted

instance : Monad Rule where
  pure := Rule.pure
  bind := Rule.bind

theorem bind_apply (r : Rule α) (f : α → Rule β) (c : Cursor) :
    (r >>= f) c =
      match r c with
      | .done a c => f a c
      | .failed e c => .failed e c
      | .exhausted => .exhausted := rfl

/-- The rule that allows no more nesting. -/
def exhausted : Rule α :=
  fun _ => .exhausted

def peek : Rule Token :=
  fun c => .done c.token c

def advance : Rule Unit :=
  fun c => .done () c.next

def fail (fault : GrammarFault) : Rule α :=
  fun c => .failed (.grammar ⟨fault, c.span⟩) c

def unexpected (wanted : Expectation) : Rule α :=
  fun c => fail (.unexpected wanted c.token) c

def formed : Except QueryError α → Rule α
  | .ok a => pure a
  | .error e => fun c => .failed e c

/-- Whether the token at the cursor is the given one; if so it is passed. -/
def accept (t : Token) : Rule Bool :=
  fun c => if c.token = t then .done true c.next else .done false c

def symbol (s : Symbol) : Rule Unit := do
  if ← accept (.symbol s) then pure () else unexpected (.symbol s)

def keyword (k : Keyword) : Rule Unit := do
  if ← accept (.keyword k) then pure () else unexpected (.keyword k)

def name : Rule String := do
  match ← peek with
  | .name s =>
    advance
    pure s
  | _ => unexpected .name

def text : Rule String := do
  match ← peek with
  | .text s =>
    advance
    pure s
  | _ => unexpected .text

def count : Rule UInt64 := do
  match ← peek with
  | .integer n =>
    if n < 0 then fail .negativeCount
    else
      advance
      pure n.toUInt64
  | _ => unexpected .integer

def mention (name : String) : Rule Unit :=
  fun c => .done () { c with mentioned := c.mentioned ++ [name] }

/-- At most `limit` further items, each after a separator. -/
def furtherUpTo (separator : Token) (item : Rule α) : Nat → Rule (List α)
  | 0 => exhausted
  | limit + 1 => do
    if ← accept separator then
      let x ← item
      let xs ← furtherUpTo separator item limit
      pure (x :: xs)
    else pure []

/-- Further items, each after a separator. There are no more of them than tokens. -/
def further (separator : Token) (item : Rule α) : Rule (List α) :=
  fun c => furtherUpTo separator item (c.rest.length + 1) c

def separated (separator : Token) (item : Rule α) : Rule (List α) := do
  let x ← item
  let xs ← further separator item
  pure (x :: xs)

def list (item : Rule α) : Rule (List α) :=
  separated (.symbol .comma) item

end Rule

end StoreQuery.Grammar

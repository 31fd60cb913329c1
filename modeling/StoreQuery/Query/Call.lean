import StoreQuery.Query.Chain

/-! # Chains call by call

A chain may be given as a row of calls. Each call is legal only at some places: the entity comes
first, a test is begun by the name of its field and ended by its predicate, and order, skip and
limit follow the tests of a select. A row of legal calls describes a chain.
-/

namespace StoreQuery

inductive Call where
  | entity (name : String)
  | filter (name : String)
  | and (name : String)
  | or (name : String)
  | not
  | predicate (p : Predicate)
  | orderBy (name : String)
  | direction (d : Direction)
  | skip (count : UInt64)
  | limit (count : UInt64)

/-- How far the calls of a chain have come. -/
inductive Place where
  | start
  | named
  | testing (connective : Connective) (name : String) (negated : Bool)
  | tested
  | sorting (name : String)
  | sorted
  | skipped
  | limited
  | paged

namespace Place

/-- Whether order, skip and limit may begin. -/
def isOrderable : Place → Bool
  | named | tested | sorted => true
  | _ => false

/-- Whether a chain may end, for a select or for a delete. -/
def isFinal : Place → Bool
  | named | tested | sorted | skipped | limited | paged => true
  | start | testing .. | sorting _ => false

end Place

namespace Chain

def ofFields (kind : ChainKind) (fields : List String) : Chain :=
  ⟨fields, "", none, kind⟩

/-- A test is added after the others. The first test is joined to nothing. -/
def addTest (c : Chain) (connective : Connective) (t : Test) : Chain :=
  match c.filter with
  | none => { c with filter := some ⟨t, []⟩ }
  | some f => { c with filter := some { f with others := f.others ++ [(connective, t)] } }

/-- A call at a place: the place after it and the chain with what it gives, if it is legal. -/
def call (place : Place) (c : Chain) (call : Call) : Option (Place × Chain) :=
  match place, call, c.kind with
  | .start, .entity name, _ => some (.named, { c with entity := name })
  | .named, .filter name, _ => some (.testing .and name false, c)
  | .tested, .and name, _ => some (.testing .and name false, c)
  | .tested, .or name, _ => some (.testing .or name false, c)
  | .testing connective name false, .not, _ => some (.testing connective name true, c)
  | .testing connective name negated, .predicate p, _ =>
    some (.tested, c.addTest connective ⟨name, negated, p⟩)
  | .sorting name, .direction d, .select sorts skip limit =>
    some (.sorted, { c with kind := .select (sorts ++ [⟨name, d⟩]) skip limit })
  | .limited, .skip n, .select sorts _ limit =>
    some (.paged, { c with kind := .select sorts n limit })
  | .skipped, .limit n, .select sorts skip _ =>
    some (.paged, { c with kind := .select sorts skip n })
  | place, .orderBy name, .select .. => if place.isOrderable then some (.sorting name, c) else none
  | place, .skip n, .select sorts _ limit =>
    if place.isOrderable then some (.skipped, { c with kind := .select sorts n limit }) else none
  | place, .limit n, .select sorts skip _ =>
    if place.isOrderable then some (.limited, { c with kind := .select sorts skip n }) else none
  | _, _, _ => none

def callAll (place : Place) (c : Chain) : List Call → Option (Place × Chain)
  | [] => some (place, c)
  | x :: xs =>
    match c.call place x with
    | some (place, c) => callAll place c xs
    | none => none

/-- The chain that calls describe, if every one of them is legal and the chain may end after
them. -/
def ofCalls (c : Chain) (calls : List Call) : Option Chain :=
  match callAll .start c calls with
  | some (place, c) => if place.isFinal then some c else none
  | none => none

def select (fields : List String) (calls : List Call) : Option Chain :=
  ofCalls (ofFields (.select [] 0 0) fields) calls

def delete (fields : List String) (calls : List Call) : Option Chain :=
  ofCalls (ofFields .delete fields) calls

end Chain

end StoreQuery

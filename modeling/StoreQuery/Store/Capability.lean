import StoreQuery.Query.Statement

/-! # Capabilities of stores

A store says which features of statements it supports; a statement says which it requires.
-/

namespace StoreQuery

inductive Capability where
  | ttl
  | ordering
  | paging
  | logic
  | statements (kind : StatementKind)
  deriving DecidableEq, Repr

def Capability.phrase : Capability → String
  | ttl => "time to live"
  | ordering => "ordering"
  | paging => "pagination"
  | logic => "logical composition"
  | statements kind => "`" ++ kind.word ++ "` statements"

structure Capabilities where
  ttl : Bool
  ordering : Bool
  paging : Bool
  logic : Bool
  deriving DecidableEq, Repr

namespace Capabilities

def all : Capabilities := ⟨true, true, true, true⟩

def none : Capabilities := ⟨false, false, false, false⟩

/-- What a store supports that does not say otherwise: everything but lifetimes. -/
def usual : Capabilities := ⟨false, true, true, true⟩

/-- Whether a feature is supported. That a kind of statement is not served at all is found before
features are asked for, so no set of features contains it. -/
def supports (c : Capabilities) : Capability → Bool
  | .ttl => c.ttl
  | .ordering => c.ordering
  | .paging => c.paging
  | .logic => c.logic
  | .statements _ => false

end Capabilities

namespace Statement

def ttl? : Statement → Option Lifetime
  | insert s => s.ttl
  | put s => s.ttl
  | _ => Option.none

def requires (s : Statement) : List Capability :=
  (match s with
    | select s =>
      (if s.sorts.isEmpty then [] else [.ordering]) ++ (if s.isPaged then [.paging] else [])
    | _ => []) ++
  (if s.ttl?.isSome then [.ttl] else []) ++
  (if s.condition?.any Condition.isLogical then [.logic] else [])

end Statement

end StoreQuery

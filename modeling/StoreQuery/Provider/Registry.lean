import StoreQuery.Provider.Settings
import StoreQuery.Tree

/-! # Registries of providers

A registry finds the factory of a store by the tag that settings name. Databases and buckets have
tags of their own. A process has one registry for all, which is installed at most once.
-/

namespace StoreQuery

/-- How a store is made from settings; a failure has the store's own message. -/
abbrev Factory (α : Type) := Settings → Except String α

/-- Factories by their tags, in increasing order of the tags. -/
abbrev Factories (α : Type) := List (String × Factory α)

namespace Factories

variable {α : Type}

/-- A factory is put under a tag; the one that the tag had is replaced. -/
def insert (tag : String) (f : Factory α) : Factories α → Factories α
  | [] => [(tag, f)]
  | (t, g) :: rest =>
    if tag < t then (tag, f) :: (t, g) :: rest
    else if tag = t then (tag, f) :: rest
    else (t, g) :: insert tag f rest

def find? (fs : Factories α) (tag : String) : Option (Factory α) :=
  (fs : List (String × Factory α)).lookup tag

def tags (fs : Factories α) : List String :=
  fs.map Prod.fst

def make (fs : Factories α) (s : Settings) : Except QueryError α :=
  match fs.find? s.provider with
  | none => .error (.unknownProvider s.provider)
  | some f =>
    match f s with
    | .ok a => .ok a
    | .error message => .error (.store message)

end Factories

/-- The factories of databases in `δ` and of buckets in `β`. -/
structure Registry (δ β : Type) where
  databases : Factories δ
  buckets : Factories β

namespace Registry

variable {δ β : Type}

def empty : Registry δ β := ⟨[], []⟩

def insertDatabase (r : Registry δ β) (tag : String) (f : Factory δ) : Registry δ β :=
  { r with databases := r.databases.insert tag f }

def insertBucket (r : Registry δ β) (tag : String) (f : Factory β) : Registry δ β :=
  { r with buckets := r.buckets.insert tag f }

def database (r : Registry δ β) (s : Settings) : Except QueryError δ :=
  r.databases.make s

def bucket (r : Registry δ β) (s : Settings) : Except QueryError β :=
  r.buckets.make s

def toTree (r : Registry δ β) : Tree :=
  .record "ProviderRegistry"
    [("databases", .list (r.databases.tags.map .ofText)),
     ("buckets", .list (r.buckets.tags.map .ofText))]

end Registry

structure Installation (δ β : Type) where
  registry : Option (Registry δ β)

namespace Installation

variable {δ β : Type}

def none : Installation δ β := ⟨Option.none⟩

/-- The registry of the process; it is empty until one is installed. -/
def current (i : Installation δ β) : Registry δ β :=
  i.registry.getD .empty

/-- A registry becomes the one of the process, unless there is one. -/
def install (i : Installation δ β) (r : Registry δ β) : Except QueryError (Installation δ β) :=
  match i.registry with
  | some _ => .error .alreadyInstalled
  | Option.none => .ok ⟨some r⟩

end Installation

end StoreQuery

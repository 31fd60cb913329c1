import StoreQuery.Error
import StoreQuery.Json.Reader

/-! # Settings of providers

Settings name the provider of a store and carry entries for it. They are read from a JSON text: an
object with the fields `provider` and `settings`, of which the second may be missing, or a list of
the two. Other fields are skipped.
-/

namespace StoreQuery

/-- A provider and entries for it, in increasing order of their keys. -/
structure Settings where
  provider : String
  entries : List (String × Json)

namespace Settings

open Json

def ofProvider (provider : String) : Settings := ⟨provider, []⟩

def insert (s : Settings) (key : String) (value : Json) : Settings :=
  { s with entries := Json.insert key value s.entries }

def get? (s : Settings) (key : String) : Option Json :=
  (s.entries.find? (·.1 == key)).map Prod.snd

def text? (s : Settings) (key : String) : Option String :=
  (s.get? key).bind Json.text?

def uint64? (s : Settings) (key : String) : Option UInt64 :=
  (s.get? key).bind Json.uint64?

def toJson (s : Settings) : Json :=
  .object [("provider", .text s.provider), ("settings", .object s.entries)]

def readProvider (cs : List Char) : Except Fault (String × List Char) :=
  match dropBlanks cs with
  | '"' :: rest => do
    let (s, rest) ← readText rest
    return (String.ofList s, rest)
  | [] => .error (.endedIn .value)
  | rest => .error (wrongKindAt "a string" rest)

/-- The entries, inside `depth` more containers at most. -/
def readEntries (steps depth : Nat) (cs : List Char) :
    Except Fault (List (String × Json) × List Char) :=
  match dropBlanks cs with
  | '\x7b' :: rest => do
    let (members, rest) ← readMembers steps (depth - 1) true [] rest
    return (members, ← closeObject rest)
  | [] => .error (.endedIn .value)
  | rest => .error (wrongKindAt "a map" rest)

structure Draft where
  provider : Option String
  entries : Option (List (String × Json))

/-- The settings of all fields. -/
def Draft.finish (d : Draft) : Except Fault Settings :=
  match d.provider with
  | some provider => .ok ⟨provider, d.entries.getD []⟩
  | none => .error (.missingField "provider")

def readField (steps depth : Nat) (d : Draft) (key : String) (cs : List Char) :
    Except Fault (Draft × List Char) := do
  if key = "provider" then
    if d.provider.isSome then .error (.repeatedField key)
    else
      let (provider, rest) ← readProvider (← readColon cs)
      return ({ d with provider := some provider }, rest)
  else if key = "settings" then
    if d.entries.isSome then .error (.repeatedField key)
    else
      let (entries, rest) ← readEntries steps depth (← readColon cs)
      return ({ d with entries := some entries }, rest)
  else
    let rest ← skipValue steps (← readColon cs)
    return (d, rest)

def readFields (steps depth : Nat) (d : Draft) (first : Bool) (cs : List Char) :
    (limit : Nat) → Except Fault (Draft × List Char)
  | 0 => .error .tooDeep
  | limit + 1 => do
    match ← nextKey first cs with
    | none => return (d, cs)
    | some rest =>
      let (key, rest) ← readText rest
      let (d, rest) ← readField steps depth d (String.ofList key) rest
      readFields steps depth d false rest limit

def readPair (steps depth : Nat) (cs : List Char) : Except Fault (Settings × List Char) := do
  match ← nextItem true cs with
  | none => .error (.tooShort 0 "struct ProviderSettings with 2 elements")
  | some rest =>
    let (provider, rest) ← readProvider rest
    match ← nextItem false rest with
    | none => return (⟨provider, []⟩, rest)
    | some following =>
      let (entries, rest) ← readEntries steps depth following
      return (⟨provider, entries⟩, rest)

def readStart (cs : List Char) : Except Fault (Settings × List Char) :=
  let steps := stepsFor cs
  match dropBlanks cs with
  | '\x7b' :: rest => do
    let (d, rest) ← readFields steps (depthLimit - 1) ⟨none, none⟩ true rest (cs.length + 1)
    let s ← d.finish
    return (s, ← closeObject rest)
  | '[' :: rest => do
    let (s, rest) ← readPair steps (depthLimit - 1) rest
    return (s, ← closeList rest)
  | [] => .error (.endedIn .value)
  | rest => .error (wrongKindAt "struct ProviderSettings" rest)

def ofText (text : String) : Except QueryError Settings :=
  let reading : Except Fault Settings := do
    let (s, rest) ← readStart text.toList
    readEnd rest
    return s
  match reading with
  | .ok s => .ok s
  | .error fault => .error (.settings fault)

end Settings

end StoreQuery

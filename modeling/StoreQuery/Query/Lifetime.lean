/-! # Lifetimes

How long a written record is kept: whole seconds, and nanoseconds below a second. Query text gives a
lifetime as an amount of one of six units.
-/

namespace StoreQuery

structure Lifetime where
  seconds : UInt64
  nanos : Nat
  nanos_lt : nanos < 1000000000 := by decide
  deriving DecidableEq, Repr

inductive TimeUnit where
  | day
  | hour
  | minute
  | second
  | millisecond
  | nanosecond
  deriving DecidableEq, Repr

namespace TimeUnit

/-- The units from the largest to the smallest. -/
def all : List TimeUnit :=
  [day, hour, minute, second, millisecond, nanosecond]

def word : TimeUnit → String
  | day => "day"
  | hour => "hour"
  | minute => "minute"
  | second => "second"
  | millisecond => "millisecond"
  | nanosecond => "nanosecond"

def inNanos : TimeUnit → Nat
  | day => 86400 * 1000000000
  | hour => 3600 * 1000000000
  | minute => 60 * 1000000000
  | second => 1000000000
  | millisecond => 1000000
  | nanosecond => 1

/-- A word without one final `s`. -/
def singular (cs : List Char) : List Char :=
  if cs.getLast? = some 's' then cs.dropLast else cs

/-- The unit that a word names, in the singular or the plural; the case of ASCII letters does not
matter. -/
def ofWord? (s : String) : Option TimeUnit :=
  all.find? fun u => u.word.toList == singular (s.toList.map Char.toLower)

end TimeUnit

namespace Lifetime

def inNanos (t : Lifetime) : Nat :=
  t.seconds.toNat * 1000000000 + t.nanos

def ofNanos? (n : Nat) : Option Lifetime :=
  if n / 1000000000 < 0x10000000000000000 then
    some ⟨UInt64.ofNat (n / 1000000000), n % 1000000000, Nat.mod_lt _ (by decide)⟩
  else none

theorem inNanos_ofNanos? {n : Nat} {t : Lifetime} (h : ofNanos? n = some t) : t.inNanos = n := by
  unfold ofNanos? at h
  split at h
  · next hlt =>
    cases h
    simp only [inNanos, UInt64.toNat_ofNat', Nat.mod_eq_of_lt hlt]
    omega
  · simp at h

/-- The lifetime of an amount of a unit, if its seconds fit a word. -/
def ofAmount? (amount : Nat) (unit : TimeUnit) : Option Lifetime :=
  ofNanos? (amount * unit.inNanos)

/-- The largest unit of which a lifetime is a whole amount; no time at all is given in seconds. -/
def unit (t : Lifetime) : TimeUnit :=
  if t.inNanos = 0 then .second
  else (TimeUnit.all.find? fun u => t.inNanos % u.inNanos == 0).getD .nanosecond

def render (t : Lifetime) : String :=
  toString (t.inNanos / t.unit.inNanos) ++ " " ++ t.unit.word

/-- The digits of a fraction with the zeros at its end left out, after a point. -/
def showFraction (width n : Nat) : List Char :=
  let digits := Nat.toDigits 10 n
  let padded := List.replicate (width - digits.length) '0' ++ digits
  match (padded.reverse.dropWhile (· == '0')).reverse with
  | [] => []
  | kept => '.' :: kept

/-- An amount and a unit, the amount with a fraction of `width` digits. -/
def showAmount (whole width part : Nat) (unit : String) : String :=
  toString whole ++ String.ofList (showFraction width part) ++ unit

/-- A lifetime as messages and records of calls show it: in the largest of four units of which it
is at least one. -/
def shown (t : Lifetime) : String :=
  if 0 < t.seconds then showAmount t.seconds.toNat 9 t.nanos "s"
  else if 1000000 ≤ t.nanos then showAmount (t.nanos / 1000000) 6 (t.nanos % 1000000) "ms"
  else if 1000 ≤ t.nanos then showAmount (t.nanos / 1000) 3 (t.nanos % 1000) "µs"
  else showAmount t.nanos 0 0 "ns"

end Lifetime

end StoreQuery

import StoreQuery.Entity

/-! # Records that pass a condition

A comparison needs a field and a value: a record without the field does not pass, and neither does
one whose field cannot be compared with the value. Numbers of both kinds are compared as numbers,
texts in the order of their characters.
-/

namespace StoreQuery

def Text.occursIn (part : List Char) : List Char → Bool
  | [] => part.isEmpty
  | c :: cs => part.isPrefixOf (c :: cs) || Text.occursIn part cs

/-- Whether a text is like a pattern. A percent sign at the start or at the end of the pattern
stands for any characters; elsewhere it stands for itself. -/
def Text.isLike (text pattern : List Char) : Bool :=
  let openStart := pattern.head? == some '%'
  let openEnd := pattern.getLast? == some '%'
  match openStart, openEnd with
  | true, true => Text.occursIn (pattern.tail.reverse.dropWhile (· == '%')).reverse text
  | true, false => pattern.tail.isSuffixOf text
  | false, true => pattern.dropLast.isPrefixOf text
  | false, false => text == pattern

namespace Value

/-- The order of two values: of numbers, or of texts. -/
def compare? (v w : Value) : Option Ordering :=
  match v.float?, w.float? with
  | some x, some y => x.compare? y
  | _, _ =>
    match v.text?, w.text? with
    | some s, some t => some (compare s t)
    | _, _ => none

end Value

def Comparison.holds (c : Comparison) (v w : Value) : Bool :=
  match c with
  | equal => v.same w
  | like =>
    match v.text?, w.text? with
    | some s, some pattern => Text.isLike s.toList pattern.toList
    | _, _ => false
  | greater => (v.compare? w).any (· == .gt)
  | greaterOrEqual => (v.compare? w).any (· != .lt)
  | less => (v.compare? w).any (· == .lt)
  | lessOrEqual => (v.compare? w).any (· != .gt)

namespace Entity

variable (e : Entity)

def passesCompare (name : String) (c : Comparison) (operand : Operand) : Bool :=
  match e.get? name, operand.read with
  | some v, .ok w => c.holds v w
  | _, _ => false

def passesWithin (name : String) (values : Operand) : Bool :=
  match e.get? name, values.read with
  | some v, .ok (.array items) => items.any (·.same v)
  | _, _ => false

def passesBetween (name : String) (low high : Operand) : Bool :=
  match (e.get? name).bind Value.float?, low.read.toOption.bind Value.float?,
      high.read.toOption.bind Value.float? with
  | some x, some l, some h =>
    (l.compare? x).any (· != .gt) && (x.compare? h).any (· != .gt)
  | _, _, _ => false

def passes : Condition → Bool :=
  Condition.fold e.passesCompare e.passesWithin e.passesBetween (·.all id) (·.any id) not

def isMeant (entity : String) (condition : Option Condition) : Bool :=
  e.name == entity && condition.all e.passes

end Entity

end StoreQuery

import StoreQuery.Number.Decimal

/-! # Numbers in decimal text

A number is written with a sign, digits, a point and an exponent, all but the digits being optional;
`inf` and `nan` are written as words. It is read as the nearest number of 64 bits, or as the nearest
one of 32 bits.
-/

namespace StoreQuery.Number

namespace Decimal

def splitSign : List Char → Bool × List Char
  | '-' :: cs => (true, cs)
  | '+' :: cs => (false, cs)
  | cs => (false, cs)

def readExponent? (cs : List Char) : Option Int :=
  let (negative, digits) := splitSign cs
  if digits.isEmpty || !digits.all Char.isDigit then none
  else
    let n : Int := Nat.ofDigitChars 10 digits 0
    some (if negative then -n else n)

def ofChars? (cs : List Char) : Option Decimal :=
  let isMark (c : Char) : Bool := c == 'e' || c == 'E'
  let mantissa := cs.takeWhile fun c => !isMark c
  let whole := mantissa.takeWhile (· != '.')
  let fraction := (mantissa.dropWhile (· != '.')).drop 1
  let digits := whole ++ fraction
  if digits.isEmpty || !digits.all Char.isDigit then none
  else
    let scaled (exponent : Int) : Decimal :=
      ⟨Nat.ofDigitChars 10 digits 0, exponent - fraction.length⟩
    match cs.dropWhile fun c => !isMark c with
    | [] => some (scaled 0)
    | _ :: exponent => (readExponent? exponent).map scaled

end Decimal

namespace Binary64

/-- The number that a text writes, the decimal being rounded by the given function. -/
def ofTextBy? (nearest : Bool → Decimal → Binary64) (s : String) : Option Binary64 :=
  let (negative, cs) := Decimal.splitSign s.toList
  let word := cs.map Char.toLower
  if word = ['i', 'n', 'f'] ∨ word = "infinity".toList then some (.infinite negative)
  else if word = ['n', 'a', 'n'] then some .nan
  else (Decimal.ofChars? cs).map (nearest negative)

def ofText? : String → Option Binary64 :=
  ofTextBy? fun negative d =>
    match d.toFinite? negative with
    | some x => .finite x
    | none => .infinite negative

/-- The number of 32 bits nearest to what a text writes, as one of 64 bits. -/
def singleOfText? : String → Option Binary64 :=
  ofTextBy? fun negative d =>
    if d.digits = 0 ∨ d.leading < -400 then .finite (.zero negative)
    else if 400 < d.leading then .infinite negative
    else viaSingle negative d.ratio.1 d.ratio.2

end Binary64

end StoreQuery.Number

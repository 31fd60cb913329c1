/-! # Places in a text

Places are counted in bytes of the text's UTF-8 form, as 64-bit words. A span names the part of a
text between two places; a place inside a character, or beyond the end, names no part.
-/

namespace StoreQuery

namespace Text

/-- The number of bytes in the UTF-8 form of some characters. -/
def width (cs : List Char) : Nat :=
  cs.foldl (fun n c => n + c.utf8Size) 0

theorem foldl_width (cs : List Char) (n : Nat) :
    cs.foldl (fun n c => n + c.utf8Size) n = n + width cs := by
  induction cs generalizing n with
  | nil => rfl
  | cons c cs ih =>
    rw [width, List.foldl_cons, List.foldl_cons, ih, ih (0 + _)]
    omega

@[simp] theorem width_nil : width [] = 0 := rfl

@[simp] theorem width_cons (c : Char) (cs : List Char) :
    width (c :: cs) = c.utf8Size + width cs := by
  rw [width, List.foldl_cons, foldl_width, Nat.zero_add]

@[simp] theorem width_append (cs ds : List Char) : width (cs ++ ds) = width cs + width ds := by
  rw [width, List.foldl_append, foldl_width ds, ← width]

/-- The characters before and after a place, if the place lies between two characters. -/
def splitAt? : Nat → List Char → Option (List Char × List Char)
  | 0, cs => some ([], cs)
  | _ + 1, [] => none
  | n + 1, c :: cs =>
    if c.utf8Size ≤ n + 1 then
      (splitAt? (n + 1 - c.utf8Size) cs).map fun (before, after) => (c :: before, after)
    else none

theorem splitAt?_width_append (cs ds : List Char) :
    splitAt? (width cs) (cs ++ ds) = some (cs, ds) := by
  induction cs with
  | nil => cases ds <;> simp [splitAt?]
  | cons c cs ih =>
    have hc := c.utf8Size_pos
    obtain ⟨n, hn⟩ : ∃ n, width (c :: cs) = n + 1 := ⟨width (c :: cs) - 1, by simp; omega⟩
    have hle : c.utf8Size ≤ n + 1 := by simp at hn; omega
    have hrest : n + 1 - c.utf8Size = width cs := by simp at hn; omega
    rw [hn, List.cons_append, splitAt?, if_pos hle, hrest, ih]
    rfl

end Text

structure Span where
  start : Nat
  stop : Nat
  deriving DecidableEq, Repr

namespace Span

def point (place : Nat) : Span :=
  ⟨place, place⟩

/-- The bytes between the two places, as a 64-bit difference. -/
def length (s : Span) : Nat :=
  (s.stop + 0x10000000000000000 - s.start) % 0x10000000000000000

def isEmpty (s : Span) : Bool :=
  s.start == s.stop

/-- The characters before the start of a span. A start beyond the end of the text is taken for
the end, and so is one inside a character. -/
def before (s : Span) (text : List Char) : List Char :=
  match Text.splitAt? (min s.start (Text.width text)) text with
  | some (cs, _) => cs
  | none => text

/-- The line of the start of a span and its column in characters, both counted from one. -/
def lineColumn (s : Span) (text : List Char) : Nat × Nat :=
  let cs := s.before text
  (cs.count '\n' + 1, (cs.reverse.takeWhile (· != '\n')).length + 1)

/-- The part of the text that a span names, or nothing. -/
def text (s : Span) (text : List Char) : List Char :=
  if s.start ≤ s.stop then
    match Text.splitAt? s.start text with
    | some (_, rest) =>
      match Text.splitAt? (s.stop - s.start) rest with
      | some (part, _) => part
      | none => []
    | none => []
  else []

end Span

end StoreQuery

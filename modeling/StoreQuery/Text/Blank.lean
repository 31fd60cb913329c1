import StoreQuery.Text.CharSet

/-! # Blanks

The characters with the Unicode property White_Space: the six ASCII blanks, the next-line and
no-break characters, the typographic spaces, and the line and paragraph separators.
-/

namespace StoreQuery.Text

def blanks : CharSet := ⟨
  [(0x9, 0xd), (0x20, 0x20), (0x85, 0x85), (0xa0, 0xa0), (0x1680, 0x1680), (0x2000, 0x200a),
   (0x2028, 0x2029), (0x202f, 0x202f), (0x205f, 0x205f), (0x3000, 0x3000)]⟩

/-- Whether a character has the Unicode property White_Space. -/
def isBlank (c : Char) : Bool :=
  blanks.contains c

end StoreQuery.Text

import Mathlib.Data.String.Basic

/-! # The order of texts

Texts are ordered character by character. That is the order of their bytes: of two characters the
greater one is encoded in bytes that are greater, whatever follows them.
-/

namespace StoreQuery.Text

def bytes (s : String) : List UInt8 :=
  s.toUTF8.data.toList

theorem bytes_eq_flatMap (s : String) : bytes s = s.toList.flatMap String.utf8EncodeChar := by
  have hbytes : s.toByteArray = s.toList.utf8Encode := by
    rw [← String.toByteArray_ofList, String.ofList_toList]
  rw [bytes, String.toUTF8_eq_toByteArray, hbytes]
  exact List.toList_data_toByteArray

section Characters

variable {m n : Nat}

theorem ofNat_lt_iff (hm : m < 256) (hn : n < 256) : UInt8.ofNat m < UInt8.ofNat n ↔ m < n :=
  UInt8.ofNat_lt_iff_lt hm hn

theorem ofNat_eq_iff (hm : m < 256) (hn : n < 256) : UInt8.ofNat m = UInt8.ofNat n ↔ m = n := by
  rw [← UInt8.toNat_inj, UInt8.toNat_ofNat_of_lt' hm, UInt8.toNat_ofNat_of_lt' hn]

/-- Numbers of 21 bits are ordered as their digits to the base 64, of which the first one has 3
bits. -/
theorem digits_lt (h : m < n) (hn : n < 2097152) :
    m / 262144 % 8 < n / 262144 % 8 ∨ m / 262144 % 8 = n / 262144 % 8 ∧
      (m / 4096 % 64 < n / 4096 % 64 ∨ m / 4096 % 64 = n / 4096 % 64 ∧
        (m / 64 % 64 < n / 64 % 64 ∨ m / 64 % 64 = n / 64 % 64 ∧ m % 64 < n % 64)) := by
  have hthree : m / 4096 < n / 4096 ∨ m / 4096 = n / 4096 ∧ (m / 64 % 64 < n / 64 % 64 ∨
      m / 64 % 64 = n / 64 % 64 ∧ m % 64 < n % 64) := by
    omega
  have hfirst : m / 262144 % 8 = m / 262144 ∧ n / 262144 % 8 = n / 262144 := by omega
  omega

/-- A greater character is encoded in greater bytes, whatever follows. -/
theorem utf8EncodeChar_append_lt {c d : Char} (h : c < d) (bs cs : List UInt8) :
    String.utf8EncodeChar c ++ bs < String.utf8EncodeChar d ++ cs := by
  have hlt : c.val.toNat < d.val.toNat := h
  have hd : d.val.toNat < 1114112 := by
    rcases d.valid with h | h <;> omega
  have hdigits := digits_lt hlt (by omega)
  dsimp only [String.utf8EncodeChar]
  generalize c.val.toNat = m at *
  generalize d.val.toNat = n at *
  -- the number of bytes that each character takes
  split_ifs <;>
    simp (disch := omega) only [List.cons_append, List.nil_append, List.cons_lt_cons_iff,
      ofNat_lt_iff, ofNat_eq_iff] <;>
    omega

end Characters

theorem flatMap_utf8EncodeChar_lt {cs ds : List Char} (h : cs < ds) :
    cs.flatMap String.utf8EncodeChar < ds.flatMap String.utf8EncodeChar := by
  induction h with
  | @nil d ds =>
    obtain ⟨b, bs, hd⟩ := List.exists_cons_of_length_pos
      ((String.length_utf8EncodeChar d).symm ▸ d.utf8Size_pos)
    rw [List.flatMap_cons, hd]
    exact .nil
  | rel h =>
    exact utf8EncodeChar_append_lt h _ _
  | cons _ ih =>
    exact List.append_left_lt ih

/-- Of two texts the smaller one has the smaller bytes. -/
theorem lt_iff_bytes_lt {s t : String} : s < t ↔ bytes s < bytes t := by
  rw [bytes_eq_flatMap, bytes_eq_flatMap]
  constructor
  · exact fun h => flatMap_utf8EncodeChar_lt (String.lt_iff_toList_lt.1 h)
  · intro h
    rcases lt_trichotomy s t with hlt | rfl | hlt
    · exact hlt
    · exact absurd h (List.lt_irrefl _)
    · exact absurd h (List.lt_asymm (flatMap_utf8EncodeChar_lt (String.lt_iff_toList_lt.1 hlt)))

end StoreQuery.Text

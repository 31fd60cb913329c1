import StoreQuery.Proofs.Token.Layout
import StoreQuery.Proofs.Token.Literal

/-! # Whole numbers as tokens

Digits, with a minus before them or without, denote an integer, however many digits there are. They
are the token of that very integer if a signed word holds it, and no token otherwise.
-/

namespace StoreQuery

open Text

def FitsWord (z : Int) : Prop :=
  -0x8000000000000000 ≤ z ∧ z < 0x8000000000000000

instance (z : Int) : Decidable (FitsWord z) :=
  inferInstanceAs (Decidable (_ ∧ _))

theorem toInt_ofInt_of_fitsWord {z : Int} (h : FitsWord z) : (Int64.ofInt z).toInt = z :=
  Int64.toInt_ofInt_of_le h.1 h.2

theorem fitsWord_toInt (n : Int64) : FitsWord n.toInt :=
  ⟨n.le_toInt, n.toInt_lt⟩

namespace Text

def IsDigits (ds : List Char) : Prop :=
  ds ≠ [] ∧ ∀ c ∈ ds, c.isDigit = true

instance (ds : List Char) : Decidable (IsDigits ds) :=
  decidable_of_iff (ds ≠ [] ∧ ds.all Char.isDigit = true) (and_congr_right' List.all_eq_true)

/-- The integer that digits denote, with a minus before them or without. -/
def wholeValue (negative : Bool) (ds : List Char) : Int :=
  if negative then -(Nat.ofDigitChars 10 ds 0 : Int) else Nat.ofDigitChars 10 ds 0

def whole? : List Char → Option Int
  | '-' :: ds => if IsDigits ds then some (wholeValue true ds) else none
  | ds => if IsDigits ds then some (wholeValue false ds) else none

theorem whole?_signed {ds : List Char} (h : IsDigits ds) (negative : Bool) :
    whole? (signed negative ds) = some (wholeValue negative ds) := by
  cases negative with
  | true => exact if_pos h
  | false =>
    rw [signed, if_neg (by decide), whole?]
    · exact if_pos h
    · rintro es rfl
      exact absurd (h.2 '-' List.mem_cons_self) (by decide)

theorem exists_of_whole? {cs : List Char} {z : Int} (h : whole? cs = some z) :
    ∃ negative ds, IsDigits ds ∧ cs = signed negative ds ∧ z = wholeValue negative ds := by
  unfold whole? at h
  split at h
  · split at h
    · next ds hds =>
      cases h
      exact ⟨true, ds, hds, rfl, rfl⟩
    · cases h
  · split at h
    · next hds =>
      cases h
      exact ⟨false, cs, hds, rfl, rfl⟩
    · cases h

end Text

namespace Token

/-- Whether a token is what characters that denote an integer are read as: this integer if a signed
word holds it, and no valid token otherwise. -/
inductive Denotes : Token → Int → Prop where
  | integer {n : Int64} : Denotes (.integer n) n.toInt
  | invalid {fault : LexicalFault} {z : Int} (h : ¬FitsWord z) : Denotes (.invalid fault) z

def isWhole : Token → Bool
  | integer _ | invalid .integerTooLarge | invalid .integerTooSmall => true
  | _ => false

variable {negative : Bool} {c : Char} {cs ds rest : List Char} {z : Int} {n : Int64}

theorem Denotes.exists_integer_iff {t : Token} {z : Int} (h : t.Denotes z) :
    (∃ n, t = .integer n) ↔ FitsWord z := by
  cases h with
  | @integer n => exact ⟨fun _ => fitsWord_toInt n, fun _ => ⟨n, rfl⟩⟩
  | invalid hz => exact ⟨nofun, fun hfits => absurd hfits hz⟩

theorem denotes_ofDigits (negative : Bool) (ds : List Char) :
    (ofDigits negative ds).Denotes (wholeValue negative ds) := by
  unfold ofDigits wholeValue
  generalize Nat.ofDigitChars 10 ds 0 = m
  have hfits : ∀ {z : Int}, FitsWord z → (integer (Int64.ofInt z)).Denotes z := by
    intro z hz
    have hinteger := @Denotes.integer (Int64.ofInt z)
    rwa [toInt_ofInt_of_fitsWord hz] at hinteger
  cases negative with
  | true =>
    simp only [if_true]
    split
    · exact hfits (by unfold FitsWord; omega)
    · exact .invalid (by unfold FitsWord; omega)
  | false =>
    simp only [Bool.false_eq_true, if_false]
    split
    · exact hfits (by unfold FitsWord; omega)
    · exact .invalid (by unfold FitsWord; omega)

section Reading

theorem isWhole_ofDecimal (whole fraction : List Char) (exponent : Int) :
    (ofDecimal negative whole fraction exponent).isWhole = false := by
  unfold ofDecimal
  dsimp only
  split <;> rfl

theorem isWhole_of_isSymbol {t : Token} (h : t.isSymbol = true) : t.isWhole = false := by
  cases t with
  | invalid fault => cases fault <;> first | rfl | cases h
  | _ => first | rfl | cases h

theorem readFraction_of_isEmpty (h : (readFraction cs).1.isEmpty = true) :
    (readFraction cs).2 = cs := by
  revert h
  unfold readFraction
  split
  · split
    · exact fun _ => rfl
    · next hsome => exact fun h => absurd h hsome
  · exact fun _ => rfl

theorem readText_eq_error {quote : Char} {fault : LexicalFault}
    (h : (readText quote cs).1 = .error fault) : fault = .openText ∨ fault = .badEscape := by
  have hmap : ∀ {x : Except LexicalFault (List Char)} {f : List Char → List Char},
      x.map f = .error fault → x = .error fault := by
    rintro (_ | _) f h
    · exact h
    · cases h
  fun_induction readText quote cs with
  | case1 =>
    cases h
    exact .inl rfl
  | case2 => cases h
  | case3 _ _ _ _ _ _ _ ih | case5 _ _ _ _ _ ih => exact ih (hmap h)
  | case4 =>
    cases h
    exact .inr rfl

/-- What is read as a whole number is digits. -/
theorem readNumber_of_isWhole {t : Token} (h : readNumber negative cs = (t, rest))
    (ht : t.isWhole = true) : cs = cs.takeWhile Char.isDigit ++ rest ∧
      t = ofDigits negative (cs.takeWhile Char.isDigit) := by
  unfold readNumber at h
  dsimp only at h
  split at h
  · split at h
    · cases h
      cases ht
    · cases h
      rw [isWhole_ofDecimal] at ht
      cases ht
  · split at h
    · next hempty =>
      cases h
      rw [readFraction_of_isEmpty hempty, List.takeWhile_append_dropWhile]
      exact ⟨rfl, rfl⟩
    · cases h
      rw [isWhole_ofDecimal] at ht
      cases ht

theorem isDigits_takeWhile (h : cs.head?.any Char.isDigit = true) :
    IsDigits (cs.takeWhile Char.isDigit) := by
  refine ⟨?_, List.all_eq_true.1 List.all_takeWhile⟩
  cases cs with
  | nil => cases h
  | cons c cs =>
    have hc : c.isDigit = true := h
    rw [List.takeWhile_cons, hc]
    nofun

theorem read_of_isWhole {t : Token} (h : read c cs = (t, rest)) (ht : t.isWhole = true) :
    ∃ negative ds, IsDigits ds ∧ c :: cs = signed negative ds ++ rest ∧
      t = ofDigits negative ds := by
  cases reads_of_read h with
  | brokenText hread =>
    rcases readText_eq_error (congrArg Prod.fst hread) with rfl | rfl <;> cases ht
  | number hdigit =>
    obtain ⟨hcs, hvalue⟩ := readNumber_of_isWhole rfl ht
    exact ⟨false, (c :: cs).takeWhile Char.isDigit, isDigits_takeWhile hdigit, hcs, hvalue⟩
  | negative hminus hdigit =>
    obtain ⟨hcs, hvalue⟩ := readNumber_of_isWhole rfl ht
    refine ⟨true, _, isDigits_takeWhile hdigit, ?_, hvalue⟩
    rw [hminus]
    exact congrArg _ hcs
  | word =>
    unfold ofWord at ht
    split at ht <;> cases ht
  | symbol =>
    rw [isWhole_of_isSymbol (isSymbol_readSymbol c cs)] at ht
    cases ht
  | _ => cases ht

end Reading

end Token

namespace Lexeme

variable {slice rest : List Char} {t : Token} {z : Int} {n : Int64} {text : String} {l : Lexeme}

/-- Digits behind layout, and in front of what does not go on with a number, are the first lexeme of
a text. -/
theorem scan_signed {gap ds : List Char} (hgap : IsLayout gap) (hds : IsDigits ds)
    (negative : Bool) (hrest : Token.EndsWhole rest) :
    scan (String.ofList (gap ++ (signed negative ds ++ rest))) =
      ⟨.ofDigits negative ds, width gap, width gap + width (signed negative ds)⟩ ::
        (scan (String.ofList rest)).map (shift (width gap + width (signed negative ds))) := by
  have hnumber : Token.readNumber negative (ds ++ rest) = (.ofDigits negative ds, rest) :=
    Token.readNumber_whole hds.2 hrest
  obtain ⟨c, cs, hsigned, hdrop, hread⟩ :=
    Token.exists_read_number (Token.startsDigit_of_isDigit hds.2 hds.1) hnumber
  rw [hsigned, scan_append_layout hgap, scan_of_read hdrop hread]
  simp [shift_shift, Nat.add_comm]

theorem exists_read_of_scan (h : scan (String.ofList slice) = [⟨t, 0, width slice⟩]) :
    ∃ c cs, slice = c :: cs ∧ Token.read c cs = (t, []) := by
  have hnil : ∀ {cs : List Char}, width cs = 0 → cs = [] := by
    rintro (_ | ⟨c, cs⟩) hzero
    · rfl
    · have := c.utf8Size_pos
      rw [width_cons] at hzero
      omega
  rw [scan, String.toList_ofList] at h
  cases hdrop : Trivia.drop slice with
  | nil =>
    rw [scanFrom_of_drop_nil hdrop] at h
    cases h
  | cons c cs =>
    obtain ⟨gap, cs', hbegins⟩ := exists_begins hdrop
    obtain ⟨hscan, hsize⟩ := hbegins.scanFrom_cons (Nat.zero_add _)
    have hread := hbegins.read_eq (.refl _) fun _ => id
    rw [hscan] at h
    simp only [List.cons.injEq, Lexeme.mk.injEq, Span.mk.injEq, Nat.zero_add] at h
    obtain ⟨⟨htoken, hstart, hstop⟩, -⟩ := h
    have heq := hbegins.eq_append
    have hrest : (Token.read c cs).2 = [] := hnil (by omega)
    rw [hrest] at hread heq
    rw [hnil hstart, List.append_nil] at heq
    rw [List.append_nil, htoken] at hread
    exact ⟨c, cs', heq, hread⟩

theorem scan_text_span (hl : l ∈ scan text) :
    scan (String.ofList (l.span.text text.toList)) =
      [⟨l.token, 0, width (l.span.text text.toList)⟩] := by
  obtain ⟨before, slice, after, htext, hspan, hslice⟩ := (tiles_scan text).exists_slice hl
  rw [Nat.zero_add] at hspan
  rwa [hspan, htext, text_span]

theorem token_denotes (hl : l ∈ scan text) (hz : whole? (l.span.text text.toList) = some z) :
    l.token.Denotes z := by
  have hslice := scan_text_span hl
  obtain ⟨negative, ds, hds, hsigned, rfl⟩ := exists_of_whole? hz
  have hends : Token.EndsWhole [] := .of_stops rfl
  have hscan := scan_signed .nil hds negative hends
  rw [List.nil_append, List.append_nil, ← hsigned, hslice] at hscan
  rw [congrArg Lexeme.token (List.cons.inj hscan).1]
  exact Token.denotes_ofDigits negative ds

theorem exists_whole?_of_isWhole (hl : l ∈ scan text) (h : l.token.isWhole = true) :
    ∃ z, whole? (l.span.text text.toList) = some z := by
  obtain ⟨c, cs, hslice, hread⟩ := exists_read_of_scan (scan_text_span hl)
  obtain ⟨negative, ds, hds, hsigned, -⟩ := Token.read_of_isWhole hread h
  rw [List.append_nil] at hsigned
  rw [hslice, hsigned, whole?_signed hds]
  exact ⟨_, rfl⟩

theorem whole?_of_integer (hl : l ∈ scan text) (h : l.token = .integer n) :
    whole? (l.span.text text.toList) = some n.toInt := by
  obtain ⟨z, hz⟩ := exists_whole?_of_isWhole hl (by rw [h]; rfl)
  have htoken := token_denotes hl hz
  rw [h] at htoken
  cases htoken
  exact hz

end Lexeme

end StoreQuery

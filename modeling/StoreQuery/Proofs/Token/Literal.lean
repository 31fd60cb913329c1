import StoreQuery.Number.Layout
import StoreQuery.Proofs.Number.Shortest
import StoreQuery.Proofs.Token.Writing
import StoreQuery.Text.Quoted

/-! # Literals write themselves

Digits, numbers and quoted texts are read back as the tokens they were written for. A number of
either layout is read as the very number, since its digits are nearest to it.
-/

namespace StoreQuery

open Number Text

def Number.Layout.exponentSign (l : Layout) (n : Int) : List Char :=
  if 0 ≤ n then (if l.plus then ['+'] else []) else ['-']

namespace Token

section Digits

variable {ds fs rest : List Char} {negative : Bool}

/-- Whether some characters do not go on with digits. -/
def EndsDigits (rest : List Char) : Prop :=
  ∀ c ∈ rest.head?, c.isDigit = false

theorem EndsDigits.takeWhile (hr : EndsDigits rest) (hd : ∀ c ∈ ds, c.isDigit = true) :
    (ds ++ rest).takeWhile Char.isDigit = ds := by
  rw [List.takeWhile_append_of_pos hd]
  cases rest with
  | nil => simp
  | cons c cs => simp [hr c rfl]

theorem EndsDigits.dropWhile (hr : EndsDigits rest) (hd : ∀ c ∈ ds, c.isDigit = true) :
    (ds ++ rest).dropWhile Char.isDigit = rest := by
  rw [List.dropWhile_append_of_pos hd]
  cases rest with
  | nil => rfl
  | cons c cs => simp [hr c rfl]

theorem isPart_of_stops (hs : stops rest = true) {c : Char} (hc : c ∈ rest.head?) :
    Name.isPart c = false := by
  cases rest with
  | nil => simp at hc
  | cons d cs =>
    cases hc
    simp only [stops, Bool.and_eq_true, Bool.not_eq_true'] at hs
    exact hs.1.1

theorem endsDigits_of_stops (hs : stops rest = true) : EndsDigits rest := by
  intro c hc
  rw [Bool.eq_false_iff]
  intro hd
  have := isPart_of_stops hs hc
  rw [Name.isPart_of_isDigit hd] at this
  exact absurd this (by decide)

/-- No exponent follows where a number ends. -/
theorem head?_of_stops (hs : stops rest = true) :
    ¬(rest.head? = some 'e' ∨ rest.head? = some 'E') := by
  rintro (h | h)
  · exact absurd (isPart_of_stops hs h) (by decide)
  · exact absurd (isPart_of_stops hs h) (by decide)

/-- Whether a whole number ends in front of some characters: they go on with no digits, with no
fraction and with no exponent. -/
structure EndsWhole (rest : List Char) : Prop where
  digits : EndsDigits rest
  fraction : ∀ cs, rest = '.' :: cs → EndsDigits cs
  exponent : ¬(rest.head? = some 'e' ∨ rest.head? = some 'E')

theorem EndsWhole.of_stops (hs : stops rest = true) : EndsWhole rest where
  digits := endsDigits_of_stops hs
  fraction := by
    rintro cs rfl
    simp [stops] at hs
  exponent := head?_of_stops hs

theorem EndsWhole.readFraction (h : EndsWhole rest) : Token.readFraction rest = ([], rest) := by
  unfold Token.readFraction
  split
  · next cs =>
    have hnone : cs.takeWhile Char.isDigit = [] := by
      cases cs with
      | nil => rfl
      | cons c cs => rw [List.takeWhile_cons, h.fraction _ rfl c rfl]; rfl
    rw [hnone]
    rfl
  · rfl

theorem readFraction_point (hf : ∀ c ∈ fs, c.isDigit = true) (hne : fs ≠ [])
    (hr : EndsDigits rest) : readFraction ('.' :: (fs ++ rest)) = (fs, rest) := by
  rw [readFraction, hr.takeWhile hf, hr.dropWhile hf, if_neg (by simpa using hne)]

theorem readNumber_whole (hd : ∀ c ∈ ds, c.isDigit = true) (h : EndsWhole rest) :
    readNumber negative (ds ++ rest) = (ofDigits negative ds, rest) := by
  simp only [readNumber, h.digits.takeWhile hd, h.digits.dropWhile hd, h.readFraction]
  rw [if_neg h.exponent]
  rfl

theorem readNumber_point (hd : ∀ c ∈ ds, c.isDigit = true) (hf : ∀ c ∈ fs, c.isDigit = true)
    (hne : fs ≠ []) (hs : stops rest = true) :
    readNumber negative (ds ++ '.' :: (fs ++ rest)) = (ofDecimal negative ds fs 0, rest) := by
  have hr : EndsDigits ('.' :: (fs ++ rest)) := by
    rintro _ ⟨⟩
    decide
  simp only [readNumber, hr.takeWhile hd, hr.dropWhile hd,
    readFraction_point hf hne (endsDigits_of_stops hs)]
  rw [if_neg (head?_of_stops hs), if_neg (by simpa using hne)]

/-- Digits after a point, where there are any. -/
def pointed : List Char → List Char
  | [] => []
  | c :: cs => '.' :: c :: cs

theorem endsDigits_pointed (fs : List Char) (hr : EndsDigits rest) :
    EndsDigits (pointed fs ++ rest) := by
  cases fs with
  | nil => exact hr
  | cons c cs =>
    rintro _ ⟨⟩
    decide

theorem readFraction_pointed (hf : ∀ c ∈ fs, c.isDigit = true) {cs : List Char} :
    readFraction (pointed fs ++ 'e' :: cs) = (fs, 'e' :: cs) := by
  cases fs with
  | nil => rfl
  | cons c fs =>
    refine readFraction_point hf (by simp) ?_
    rintro _ ⟨⟩
    decide

theorem readNumber_exponent {sign es : List Char} {down : Bool}
    (hd : ∀ c ∈ ds, c.isDigit = true) (hf : ∀ c ∈ fs, c.isDigit = true)
    (hsign : readSign (sign ++ (es ++ rest)) = (down, es ++ rest))
    (he : ∀ c ∈ es, c.isDigit = true) (hne : es ≠ []) (hs : stops rest = true) :
    readNumber negative (ds ++ (pointed fs ++ 'e' :: (sign ++ (es ++ rest)))) =
      (ofDecimal negative ds fs
        (if down then -(Nat.ofDigitChars 10 es 0 : Int) else Nat.ofDigitChars 10 es 0), rest) := by
  have hr : EndsDigits ('e' :: (sign ++ (es ++ rest))) := by
    rintro _ ⟨⟩
    decide
  have hr' := endsDigits_pointed fs hr
  have hr'' := endsDigits_of_stops hs
  simp only [readNumber, hr'.takeWhile hd, hr'.dropWhile hd, readFraction_pointed hf,
    List.head?_cons, true_or, if_true, List.tail_cons, hsign, hr''.takeWhile he,
    hr''.dropWhile he]
  rw [if_neg (by simpa using hne)]

end Digits

theorem isDigit_toDigits (n : Nat) : ∀ c ∈ Nat.toDigits 10 n, c.isDigit = true :=
  fun _ h => Nat.isDigit_of_mem_toDigits (by decide) (by decide) h

theorem isDigit_replicate_zero (n : Nat) : ∀ c ∈ List.replicate n '0', c.isDigit = true := by
  intro c hc
  rw [(List.mem_replicate.1 hc).2]
  decide

theorem isDigit_append {ds fs : List Char} (hd : ∀ c ∈ ds, c.isDigit = true)
    (hf : ∀ c ∈ fs, c.isDigit = true) : ∀ c ∈ ds ++ fs, c.isDigit = true := by
  intro c hc
  rcases List.mem_append.1 hc with h | h
  · exact hd c h
  · exact hf c h

section Magnitude

variable {d : Decimal} {x : Binary64.Finite} {negative : Bool} {rest : List Char}

theorem ofDecimal_eq {whole fraction : List Char} {exponent : Int}
    (h : Decimal.toFinite? negative
      ⟨Nat.ofDigitChars 10 (whole ++ fraction) 0, exponent - fraction.length⟩ = some x) :
    ofDecimal negative whole fraction exponent = .float x := by
  simp only [ofDecimal, h]

theorem readNumber_of_point {cs ds fs : List Char} (hd : ∀ c ∈ ds, c.isDigit = true)
    (hf : ∀ c ∈ fs, c.isDigit = true) (hne : fs ≠ []) (hcs : cs = ds ++ '.' :: fs)
    (hx : Decimal.toFinite? negative ⟨Nat.ofDigitChars 10 (ds ++ fs) 0, -fs.length⟩ = some x)
    (hs : stops rest = true) : readNumber negative (cs ++ rest) = (.float x, rest) := by
  rw [hcs, List.append_assoc, List.cons_append, readNumber_point hd hf hne hs, ofDecimal_eq]
  rwa [Int.zero_sub]

theorem readNumber_writePositional {l : Layout} (hl : l.pointZero = true)
    (hx : d.toFinite? negative = some x)
    (hpad : 0 ≤ d.exponent →
      Decimal.toFinite? negative ⟨10 * (10 ^ d.exponent.toNat * d.digits), -1⟩ = some x)
    (hs : stops rest = true) :
    readNumber negative (l.writePositional d ++ rest) = (.float x, rest) := by
  have hdigits := isDigit_toDigits d.digits
  simp only [Layout.writePositional, hl, if_true]
  split
  · next hexp =>
    -- Every digit stands before the point.
    refine readNumber_of_point
      (isDigit_append hdigits (isDigit_replicate_zero d.exponent.toNat))
      (isDigit_replicate_zero 1) (by simp) rfl ?_ hs
    simpa [Nat.ofDigitChars_append, Nat.ofDigitChars_cons] using hpad hexp
  · next hexp =>
    generalize hds : Nat.toDigits 10 d.digits = ds at hdigits
    have hval : Nat.ofDigitChars 10 ds 0 = d.digits := by rw [← hds, Nat.ofDigitChars_ten_toDigits]
    split
    · next hlen =>
      -- Every digit stands after the point.
      refine readNumber_of_point (isDigit_replicate_zero 1)
        (isDigit_append (isDigit_replicate_zero ((-d.exponent).toNat - ds.length)) hdigits)
        (by simp [← hds]) rfl ?_ hs
      have he : -((((-d.exponent).toNat - ds.length + ds.length : Nat)) : Int) = d.exponent := by
        omega
      rw [List.length_append, List.length_replicate, he, Nat.ofDigitChars_append,
        Nat.ofDigitChars_append, Nat.ofDigitChars_replicate_zero, Nat.ofDigitChars_replicate_zero,
        Nat.mul_zero, hval]
      exact hx
    · next hlen =>
      have hne : ds.drop (ds.length - (-d.exponent).toNat) ≠ [] := by
        simp
        omega
      refine readNumber_of_point (fun c hc => hdigits c (List.mem_of_mem_take hc))
        (fun c hc => hdigits c (List.mem_of_mem_drop hc)) hne rfl ?_ hs
      have he : -((ds.length - (ds.length - (-d.exponent).toNat) : Nat) : Int) = d.exponent := by
        omega
      rw [List.take_append_drop, List.length_drop, he, hval]
      exact hx

theorem writeScientific_eq (l : Layout) {c : Char} {fs : List Char}
    (h : Nat.toDigits 10 d.digits = c :: fs) :
    l.writeScientific d = c :: (pointed fs ++
      'e' :: (l.exponentSign d.leading ++ Nat.toDigits 10 d.leading.natAbs)) := by
  have hmark : (if 0 ≤ d.leading then (if l.plus then ['e', '+'] else ['e']) else ['e', '-']) =
      'e' :: l.exponentSign d.leading := by
    unfold Layout.exponentSign
    cases l.plus <;> split <;> rfl
  simp only [Layout.writeScientific, h, hmark]
  cases fs <;> simp [pointed]

theorem readSign_exponentSign (l : Layout) (n : Int) {es : List Char}
    (he : ∀ c ∈ es, c.isDigit = true) (hne : es ≠ []) :
    readSign (l.exponentSign n ++ (es ++ rest)) = (decide (n < 0), es ++ rest) := by
  obtain ⟨c, cs, rfl⟩ := List.exists_cons_of_ne_nil hne
  have hc := he c List.mem_cons_self
  unfold Layout.exponentSign
  split
  · next h =>
    rw [decide_eq_false (Int.not_lt.2 h)]
    split
    · rfl
    · rw [List.nil_append, List.cons_append, readSign]
      · rintro _ ⟨⟩
        exact absurd hc (by decide)
      · rintro _ ⟨⟩
        exact absurd hc (by decide)
  · next h =>
    rw [decide_eq_true (Int.not_le.1 h)]
    rfl

theorem readNumber_writeScientific {l : Layout} (hx : d.toFinite? negative = some x)
    (hs : stops rest = true) :
    readNumber negative (l.writeScientific d ++ rest) = (.float x, rest) := by
  obtain ⟨c, fs, hds⟩ := List.exists_cons_of_ne_nil (Nat.toDigits_ne_nil (n := d.digits) (b := 10))
  have hdigits := isDigit_toDigits d.digits
  rw [hds, List.forall_mem_cons] at hdigits
  have hes := isDigit_toDigits d.leading.natAbs
  have hlead : (if decide (d.leading < 0) = true then
      -(Nat.ofDigitChars 10 (Nat.toDigits 10 d.leading.natAbs) 0 : Int)
      else Nat.ofDigitChars 10 (Nat.toDigits 10 d.leading.natAbs) 0) - fs.length = d.exponent := by
    have : d.leading = d.exponent + fs.length := by
      rw [Decimal.leading, hds, List.length_cons]
      omega
    simp only [Nat.ofDigitChars_ten_toDigits, decide_eq_true_eq]
    split <;> omega
  have hcs : l.writeScientific d ++ rest = [c] ++ (pointed fs ++
      'e' :: (l.exponentSign d.leading ++ (Nat.toDigits 10 d.leading.natAbs ++ rest))) := by
    simp [writeScientific_eq l hds]
  rw [hcs, readNumber_exponent (List.forall_mem_singleton.2 hdigits.1) hdigits.2
    (readSign_exponentSign l d.leading hes Nat.toDigits_ne_nil) hes Nat.toDigits_ne_nil hs,
    ofDecimal_eq]
  rw [hlead, List.cons_append, List.nil_append, ← hds, Nat.ofDigitChars_ten_toDigits]
  exact hx

theorem readNumber_writeMagnitude {l : Layout} (hl : l.pointZero = true)
    (rank : Fin Binary64.magnitudeCount) (hs : stops rest = true) :
    readNumber negative (l.writeMagnitude rank ++ rest) = (.float ⟨negative, rank⟩, rest) := by
  have hx : (Decimal.shortest l.tie rank).toFinite? negative = some ⟨negative, rank⟩ ∧
      (0 ≤ (Decimal.shortest l.tie rank).exponent →
        Decimal.toFinite? negative ⟨10 * (10 ^ (Decimal.shortest l.tie rank).exponent.toNat *
          (Decimal.shortest l.tie rank).digits), -1⟩ = some ⟨negative, rank⟩) := by
    rcases Nat.eq_zero_or_pos rank.val with h0 | hpos
    · have hz : Binary64.Finite.zero negative = ⟨negative, rank⟩ := by
        rw [Binary64.Finite.zero]
        congr 1
        exact Fin.ext h0.symm
      rw [Decimal.shortest, if_pos h0, ← hz]
      exact ⟨rfl, fun _ => rfl⟩
    · have h := Decimal.readsBack_shortest l.tie hpos rank.isLt
      exact ⟨h.toFinite? hpos negative, fun hk => (h.pad hk).toFinite? hpos negative⟩
  rw [Layout.writeMagnitude]
  split
  · split
    · exact readNumber_writePositional hl hx.1 hx.2 hs
    · exact readNumber_writeScientific hx.1 hs
  · exact readNumber_writePositional hl hx.1 hx.2 hs

end Magnitude

def StartsDigit (cs : List Char) : Prop :=
  ∃ c ds, cs = c :: ds ∧ c.isDigit = true

theorem startsDigit_append {cs ds : List Char} (h : StartsDigit cs) : StartsDigit (cs ++ ds) := by
  obtain ⟨c, cs, rfl, hc⟩ := h
  exact ⟨c, cs ++ ds, rfl, hc⟩

theorem startsDigit_of_isDigit {ds : List Char} (hd : ∀ c ∈ ds, c.isDigit = true) (hne : ds ≠ []) :
    StartsDigit ds := by
  obtain ⟨c, cs, rfl⟩ := List.exists_cons_of_ne_nil hne
  exact ⟨c, cs, rfl, hd c List.mem_cons_self⟩

theorem startsDigit_toDigits (n : Nat) : StartsDigit (Nat.toDigits 10 n) :=
  startsDigit_of_isDigit (isDigit_toDigits n) Nat.toDigits_ne_nil

theorem startsDigit_writePositional (l : Layout) (d : Decimal) :
    StartsDigit (l.writePositional d) := by
  rw [Layout.writePositional]
  dsimp only
  split
  · exact startsDigit_append (startsDigit_append (startsDigit_toDigits _))
  · split
    · exact ⟨'0', _, rfl, by decide⟩
    · refine startsDigit_append (startsDigit_of_isDigit
        (fun c hc => isDigit_toDigits _ c (List.mem_of_mem_take hc)) ?_)
      simp
      omega

theorem startsDigit_writeMagnitude (l : Layout) (rank : Nat) :
    StartsDigit (l.writeMagnitude rank) := by
  have hsci : ∀ d, StartsDigit (l.writeScientific d) := fun d => by
    obtain ⟨c, fs, hds, hc⟩ := startsDigit_toDigits d.digits
    rw [writeScientific_eq l hds]
    exact ⟨c, _, rfl, hc⟩
  rw [Layout.writeMagnitude]
  split
  · split
    · exact startsDigit_writePositional ..
    · exact hsci _
  · exact startsDigit_writePositional ..

end Token

open Token

def Text.signed (negative : Bool) (cs : List Char) : List Char :=
  if negative then '-' :: cs else cs

theorem Token.exists_read_number {cs rest : List Char} {negative : Bool} {t : Token}
    (hcs : StartsDigit cs) (h : readNumber negative (cs ++ rest) = (t, rest)) :
    ∃ c ds, signed negative cs = c :: ds ∧ Trivia.drop (c :: (ds ++ rest)) = c :: (ds ++ rest) ∧
      read c (ds ++ rest) = (t, rest) := by
  obtain ⟨c, ds, rfl, hc⟩ := hcs
  have hblank : isBlank c = false := of_isDigit (p := fun c => isBlank c = false) (by decide) hc
  have hne : ∀ d, d.isDigit = false → c ≠ d := by
    rintro d hd rfl
    rw [hc] at hd
    exact absurd hd (by decide)
  rw [List.cons_append] at h
  cases negative with
  | false =>
    refine ⟨c, ds, rfl, Trivia.drop_eq_self hblank ?_ ?_, ?_⟩
    · exact fun h => absurd h (hne _ (by decide))
    · exact fun h => absurd h (hne _ (by decide))
    · rw [read, if_neg, if_neg (hne _ (by decide)), if_neg (hne _ (by decide)), if_pos hc, h]
      rintro (h | h)
      · exact hne _ (by decide) h
      · exact hne _ (by decide) h
  | true =>
    refine ⟨'-', c :: ds, rfl, Trivia.drop_eq_self (by decide) ?_ ?_, ?_⟩
    · rintro - h
      exact hne _ (by decide) (Option.some.inj h)
    · exact fun h => absurd h (by decide)
    · rw [List.cons_append, read, if_neg (by decide), if_neg (by decide), if_neg (by decide),
        if_neg (by decide), if_pos ⟨rfl, by simpa using hc⟩, h]

namespace Lexeme

theorem tokens_number {cs rest : List Char} {negative : Bool} {t : Token} (hcs : StartsDigit cs)
    (h : readNumber negative (cs ++ rest) = (t, rest)) :
    tokens (signed negative cs ++ rest) = t :: tokens rest := by
  obtain ⟨c, ds, hsigned, hdrop, hread⟩ := exists_read_number hcs h
  rw [hsigned, List.cons_append, tokens_of_drop_cons hdrop, hread]

end Lexeme

theorem toList_toString_int (n : Int) :
    (toString n).toList = signed (decide (n < 0)) (Nat.toDigits 10 n.natAbs) := by
  cases n with
  | ofNat m => exact Nat.toList_repr
  | negSucc m =>
    show (String.append "-" (m + 1).repr).toList = _
    rw [show String.append "-" (m + 1).repr = "-" ++ (m + 1).repr from rfl, String.toList_append,
      Nat.toList_repr]
    simp [Int.negSucc_lt_zero, signed]

namespace Token

theorem ofDigits_toDigits (n : Int64) :
    ofDigits (decide (n.toInt < 0)) (Nat.toDigits 10 n.toInt.natAbs) = .integer n := by
  have hlo : -0x8000000000000000 ≤ n.toInt := n.le_toInt
  have hhi : n.toInt < 0x8000000000000000 := n.toInt_lt
  have hn := Int64.ofInt_toInt n
  generalize n.toInt = i at *
  simp only [ofDigits, Nat.ofDigitChars_ten_toDigits, decide_eq_true_eq]
  split
  · have hi : -(i.natAbs : Int) = i := by omega
    rw [if_pos (by omega), hi, hn]
  · have hi : (i.natAbs : Int) = i := by omega
    rw [if_pos (by omega), hi, hn]

section Text

variable {q c : Char} {cs rest : List Char}

theorem readText_escape (hq : '\\' ≠ q) (h : readEscape cs = (some c, rest)) :
    readText q ('\\' :: cs) = ((readText q rest).1.map (c :: ·), (readText q rest).2) := by
  rw [readText, if_neg hq, if_pos rfl]
  split
  · next heq =>
    rw [h] at heq
    cases heq
    rfl
  · next heq =>
    rw [h] at heq
    cases heq

theorem readText_plain (hq : c ≠ q) (hc : c ≠ '\\') :
    readText q (c :: cs) = ((readText q cs).1.map (c :: ·), (readText q cs).2) := by
  rw [readText, if_neg hq, if_neg hc]

theorem readEscape_control (h : c.toNat < 0x20) :
    readEscape ('u' :: '0' :: '0' :: hexDigit (c.toNat / 16) :: hexDigit (c.toNat % 16) :: cs) =
      (some c, cs) := by
  have hhex : ∀ n < 16, hexValue? (hexDigit n) = some n := by decide
  have hc : (((0 * 16 + 0) * 16 + 0) * 16 + c.toNat / 16) * 16 + c.toNat % 16 = c.toNat := by
    omega
  have hread :
      readHex 4 0 ('0' :: '0' :: hexDigit (c.toNat / 16) :: hexDigit (c.toNat % 16) :: cs) =
        (some c.toNat, cs) := by
    have h0 : hexValue? '0' = some 0 := by decide
    simp only [readHex, h0, hhex (c.toNat / 16) (by omega), hhex (c.toNat % 16) (by omega), hc]
  show readCodePoint _ = _
  rw [readCodePoint, hread]
  dsimp only
  rw [if_neg (by omega), if_neg (by omega), Char.ofNat_toNat]

theorem readText_quoteChar (c : Char) (cs : List Char) :
    readText '"' (quoteChar c ++ cs) =
      ((readText '"' cs).1.map (c :: ·), (readText '"' cs).2) := by
  unfold quoteChar
  split
  case h_8 hquote hslash _ _ _ _ _ =>
    split
    · next h => exact readText_escape (by decide) (readEscape_control h)
    · exact readText_plain hquote hslash
  all_goals exact readText_escape (by decide) rfl

theorem readText_quote (s : List Char) :
    readText '"' (s.flatMap quoteChar ++ '"' :: rest) = (.ok s, rest) := by
  induction s with
  | nil => rw [List.flatMap_nil, List.nil_append, readText, if_pos rfl]
  | cons c s ih =>
    rw [List.flatMap_cons, List.append_assoc, readText_quoteChar, ih]
    rfl

end Text

end Token

theorem Closes.quote (s : String) : Closes (Text.quote s).toList [.text s] := by
  intro rest
  have hread : Token.read '"' (s.toList.flatMap quoteChar ++ '"' :: rest) = (.text s, rest) := by
    rw [Token.read, if_pos (Or.inl rfl), readText_quote]
    simp
  rw [toList_quote, List.cons_append, List.append_assoc, List.cons_append, List.nil_append,
    Lexeme.tokens_eq_read (by decide) (fun h => absurd h (by decide))
      (fun h => absurd h (by decide)), hread]
  rfl

namespace Writes

theorem integer (n : Int64) : Writes (toString n.toInt).toList [.integer n] := by
  intro rest hs
  rw [toList_toString_int, Lexeme.tokens_number (startsDigit_toDigits _)
    (readNumber_whole (isDigit_toDigits _) (.of_stops hs)), ofDigits_toDigits]
  rfl

theorem float {l : Layout} (hl : l.pointZero = true) (x : Binary64.Finite) :
    Writes (l.writeFinite x) [.float x] := by
  intro rest hs
  exact Lexeme.tokens_number (startsDigit_writeMagnitude l x.rank)
    (readNumber_writeMagnitude hl x.rank hs)

end Writes

end StoreQuery

import Mathlib.Data.List.Forall2
import StoreQuery.Proofs.Token.Layout

/-! # Encodings of texts

A character may stand in a literal for itself or be escaped: by a letter, by its code, or by the
codes of a surrogate pair. A literal whose characters are encoded in any of these ways is read as
the text of the characters. After an opening quote there is nothing else than such characters up to
a closing quote, or up to something that is no escape, or up to the end.
-/

namespace StoreQuery

open Text

def IsHexDigit (c : Char) (n : Nat) : Prop :=
  n < 16 ∧ (c = hexDigit n ∨ c = (hexDigit n).toUpper)

instance (c : Char) (n : Nat) : Decidable (IsHexDigit c n) :=
  inferInstanceAs (Decidable (_ ∧ _))

def IsHexCode (ds : List Char) (n : Nat) : Prop :=
  List.Forall₂ IsHexDigit ds [n / 4096, n / 256 % 16, n / 16 % 16, n % 16]

instance (ds : List Char) (n : Nat) : Decidable (IsHexCode ds n) :=
  inferInstanceAs (Decidable (List.Forall₂ _ _ _))

/-- Whether a number is the second half of a surrogate pair. -/
def IsLow (n : Nat) : Prop :=
  0xDC00 ≤ n ∧ n < 0xE000

/-- The letters that may follow a backslash, and the characters that they stand for. -/
def shortEscapes : List (Char × Char) :=
  [('"', '"'), ('\'', '\''), ('\\', '\\'), ('/', '/'), ('b', '\x08'), ('f', '\x0c'), ('n', '\n'),
    ('r', '\r'), ('t', '\t')]

inductive Escapes : List Char → Char → Prop
  | short {letter c : Char} (h : (letter, c) ∈ shortEscapes) : Escapes [letter] c
  | code {ds : List Char} {c : Char} (h : IsHexCode ds c.toNat) : Escapes ('u' :: ds) c
  | pair {high low : List Char} {c : Char} (h : 0x10000 ≤ c.toNat)
      (hhigh : IsHexCode high (0xD800 + (c.toNat - 0x10000) / 0x400))
      (hlow : IsHexCode low (0xDC00 + (c.toNat - 0x10000) % 0x400)) :
      Escapes ('u' :: (high ++ '\\' :: 'u' :: low)) c

inductive Encodes (quote : Char) : List Char → List Char → Prop
  | nil : Encodes quote [] []
  | plain {c : Char} {body s : List Char} (hquote : c ≠ quote) (hescape : c ≠ '\\')
      (h : Encodes quote body s) : Encodes quote (c :: body) (c :: s)
  | escape {escape body s : List Char} {c : Char} (hescape : Escapes escape c)
      (h : Encodes quote body s) : Encodes quote ('\\' :: (escape ++ body)) (c :: s)

/-- What may follow a backslash that begins no escape: nothing, another letter, a code that has not
four digits, and a half of a surrogate pair without the other half. -/
inductive BadEscape : List Char → Prop
  | nothing : BadEscape []
  | letter {c : Char} {cs : List Char} (hu : c ≠ 'u') (h : ∀ d, (c, d) ∉ shortEscapes) :
      BadEscape (c :: cs)
  | noCode {cs : List Char} (h : ∀ ds n rest, IsHexCode ds n → cs ≠ ds ++ rest) :
      BadEscape ('u' :: cs)
  | unpairedHigh {ds rest : List Char} {n : Nat} (hds : IsHexCode ds n) (hn : Token.IsHigh n)
      (h : ∀ ls m rest', IsHexCode ls m → IsLow m → rest ≠ '\\' :: 'u' :: (ls ++ rest')) :
      BadEscape ('u' :: (ds ++ rest))
  | unpairedLow {ds rest : List Char} {n : Nat} (hds : IsHexCode ds n) (hn : IsLow n) :
      BadEscape ('u' :: (ds ++ rest))

namespace Token

section Codes

variable {c : Char} {cs ds rest : List Char} {count m n : Nat}

theorem isHexDigit_of_range {first : Nat} (count value : Nat)
    (hall : ∀ k < count, IsHexDigit (Char.ofNat (first + k)) (value + k)) (hlo : first ≤ c.toNat)
    (hhi : c.toNat < first + count) : IsHexDigit c (c.toNat - first + value) := by
  have h := hall (c.toNat - first) (by omega)
  rwa [Nat.add_sub_cancel' hlo, Char.ofNat_toNat, Nat.add_comm] at h

theorem hexValue?_eq_some_iff : hexValue? c = some n ↔ IsHexDigit c n := by
  constructor
  · intro h
    unfold hexValue? at h
    simp only [Char.le_def, UInt32.le_iff_toNat_le, Char.toNat_val] at h
    split at h
    · next hc =>
      cases h
      exact isHexDigit_of_range 10 0 (by decide) hc.1 (Nat.lt_succ_of_le hc.2)
    split at h
    · next hc =>
      cases h
      exact isHexDigit_of_range 6 10 (by decide) hc.1 (Nat.lt_succ_of_le hc.2)
    split at h
    · next hc =>
      cases h
      exact isHexDigit_of_range 6 10 (by decide) hc.1 (Nat.lt_succ_of_le hc.2)
    · cases h
  · have hall : ∀ n < 16, hexValue? (hexDigit n) = some n ∧
        hexValue? (hexDigit n).toUpper = some n := by decide
    rintro ⟨hn, rfl | rfl⟩
    · exact (hall n hn).1
    · exact (hall n hn).2

theorem readHex_succ_iff : readHex (count + 1) n cs = (some m, rest) ↔
    ∃ c d ds, cs = c :: ds ∧ IsHexDigit c d ∧ readHex count (n * 16 + d) ds = (some m, rest) := by
  constructor
  · intro h
    cases cs with
    | nil => cases h
    | cons c cs =>
      cases hc : hexValue? c with
      | none =>
        rw [readHex_of_none hc] at h
        cases h
      | some d =>
        rw [readHex_of_some hc] at h
        exact ⟨c, d, cs, rfl, hexValue?_eq_some_iff.1 hc, h⟩
  · rintro ⟨c, d, ds, rfl, hc, h⟩
    rw [readHex_of_some (hexValue?_eq_some_iff.2 hc), h]

theorem readHex_eq_some_iff :
    readHex 4 0 cs = (some n, rest) ↔ ∃ ds, IsHexCode ds n ∧ cs = ds ++ rest := by
  constructor
  · intro h
    obtain ⟨c₁, d₁, _, rfl, h₁, h⟩ := readHex_succ_iff.1 h
    obtain ⟨c₂, d₂, _, rfl, h₂, h⟩ := readHex_succ_iff.1 h
    obtain ⟨c₃, d₃, _, rfl, h₃, h⟩ := readHex_succ_iff.1 h
    obtain ⟨c₄, d₄, _, rfl, h₄, h⟩ := readHex_succ_iff.1 h
    obtain ⟨hn, rfl⟩ := Prod.mk.inj h
    have hn := Option.some.inj hn
    refine ⟨[c₁, c₂, c₃, c₄], ?_, rfl⟩
    obtain ⟨hd₁, hd₂, hd₃, hd₄⟩ : d₁ < 16 ∧ d₂ < 16 ∧ d₃ < 16 ∧ d₄ < 16 :=
      ⟨h₁.1, h₂.1, h₃.1, h₄.1⟩
    have hdigits : [d₁, d₂, d₃, d₄] = [n / 4096, n / 256 % 16, n / 16 % 16, n % 16] := by
      simp only [List.cons.injEq, and_true]
      omega
    rw [IsHexCode, ← hdigits]
    exact .cons h₁ (.cons h₂ (.cons h₃ (.cons h₄ .nil)))
  · rintro ⟨ds, hds, rfl⟩
    simp only [IsHexCode, List.forall₂_cons_right_iff, List.forall₂_nil_right_iff] at hds
    obtain ⟨c₁, _, h₁, ⟨c₂, _, h₂, ⟨c₃, _, h₃, ⟨c₄, _, h₄, rfl, rfl⟩, rfl⟩, rfl⟩, rfl⟩ := hds
    have hn : (((0 * 16 + n / 4096) * 16 + n / 256 % 16) * 16 + n / 16 % 16) * 16 + n % 16 = n := by
      omega
    refine readHex_succ_iff.2 ⟨_, _, _, rfl, h₁, readHex_succ_iff.2 ⟨_, _, _, rfl, h₂,
      readHex_succ_iff.2 ⟨_, _, _, rfl, h₃, readHex_succ_iff.2 ⟨_, _, _, rfl, h₄, ?_⟩⟩⟩⟩
    rw [hn]
    rfl

theorem lt_of_isHexCode (h : IsHexCode ds n) : n < 0x10000 := by
  obtain ⟨_, _, ⟨hlt, -⟩, -⟩ := List.forall₂_cons_right_iff.1 h
  omega

end Codes

section Characters

variable {c letter : Char} {cs ds es rest : List Char} {n : Nat}

theorem toNat_ofNat (h : n.isValidChar) : (Char.ofNat n).toNat = n := by
  rw [Char.ofNat, dif_pos h]
  rfl

theorem isValidChar_toNat (c : Char) : c.toNat.isValidChar :=
  c.valid

theorem not_isHigh_toNat (c : Char) : ¬IsHigh c.toNat := by
  have := isValidChar_toNat c
  unfold Nat.isValidChar at this
  unfold IsHigh
  omega

theorem not_isLow_toNat (c : Char) : ¬IsLow c.toNat := by
  have := isValidChar_toNat c
  unfold Nat.isValidChar at this
  unfold IsLow
  omega

theorem isValidChar_of_isHexCode (h : IsHexCode ds n) (hhigh : ¬IsHigh n) (hlow : ¬IsLow n) :
    n.isValidChar := by
  have := lt_of_isHexCode h
  unfold IsHigh at hhigh
  unfold IsLow at hlow
  unfold Nat.isValidChar
  omega

theorem readEscape_letter_iff (hu : letter ≠ 'u') :
    readEscape (letter :: cs) = (some c, rest) ↔ (letter, c) ∈ shortEscapes ∧ cs = rest := by
  have hall : ∀ p ∈ shortEscapes, (readEscape [p.1]).1 = some p.2 := by decide
  have hsome : (readEscape [letter]).1 = some c → (letter, c) ∈ shortEscapes := by
    unfold readEscape
    dsimp only
    split <;> rintro ⟨⟩ <;> decide
  rw [readEscape_of_ne hu, Prod.mk.injEq]
  exact and_congr_left fun _ => ⟨hsome, hall (letter, c)⟩

end Characters

section Escapes

variable {c : Char} {cs ds es ls rest : List Char} {high low : Nat}

def ofPair (high low : Nat) : Char :=
  Char.ofNat (0x10000 + (high - 0xD800) * 0x400 + (low - 0xDC00))

/-- The character of a pair gives its halves back. -/
theorem halves_ofPair (hhigh : IsHigh high) (hlow : IsLow low) :
    0x10000 ≤ (ofPair high low).toNat ∧
      0xD800 + ((ofPair high low).toNat - 0x10000) / 0x400 = high ∧
      0xDC00 + ((ofPair high low).toNat - 0x10000) % 0x400 = low := by
  unfold IsHigh at hhigh
  unfold IsLow at hlow
  rw [ofPair, toNat_ofNat (.inr (by omega))]
  omega

theorem ofPair_halves (h : 0x10000 ≤ c.toNat) :
    IsHigh (0xD800 + (c.toNat - 0x10000) / 0x400) ∧ IsLow (0xDC00 + (c.toNat - 0x10000) % 0x400) ∧
      ofPair (0xD800 + (c.toNat - 0x10000) / 0x400) (0xDC00 + (c.toNat - 0x10000) % 0x400) = c := by
  have hvalid := isValidChar_toNat c
  unfold Nat.isValidChar at hvalid
  unfold IsHigh IsLow
  refine ⟨by omega, by omega, ?_⟩
  rw [ofPair, ← Char.toNat_inj, toNat_ofNat (.inr (by omega))]
  omega

theorem readLow_eq_some_iff : readLow high cs = (some c, rest) ↔
    ∃ ls low, IsHexCode ls low ∧ IsLow low ∧ ofPair high low = c ∧ cs = ls ++ rest := by
  constructor
  · intro h
    rcases hhex : readHex 4 0 cs with ⟨_ | low, after⟩
    · rw [readLow_of_none hhex] at h
      cases h
    · obtain ⟨ls, hls, hcs⟩ := readHex_eq_some_iff.1 hhex
      rw [readLow_of_some hhex, Prod.mk.injEq] at h
      obtain ⟨hc, rfl⟩ := h
      split at hc
      · next hlow => exact ⟨ls, low, hls, hlow, Option.some.inj hc, hcs⟩
      · cases hc
  · rintro ⟨ls, low, hls, hlow, rfl, rfl⟩
    rw [readLow_of_some (readHex_eq_some_iff.2 ⟨ls, hls, rfl⟩), Prod.mk.injEq]
    exact ⟨if_pos hlow, rfl⟩

theorem readCodePoint_low {n : Nat} (h : readHex 4 0 cs = (some n, rest)) (hn : IsLow n) :
    readCodePoint cs = (none, rest) := by
  have hhigh : ¬IsHigh n := fun hhigh => Nat.not_lt.2 hn.1 hhigh.2
  rw [readCodePoint_single h hhigh, Prod.mk.injEq]
  exact ⟨if_pos hn, rfl⟩

theorem readCodePoint_whole {n : Nat} (h : readHex 4 0 cs = (some n, rest)) (hhigh : ¬IsHigh n)
    (hlow : ¬IsLow n) : readCodePoint cs = (some (Char.ofNat n), rest) := by
  rw [readCodePoint_single h hhigh, Prod.mk.injEq]
  exact ⟨if_neg hlow, rfl⟩

theorem readEscape_of_escapes (h : Escapes es c) (rest : List Char) :
    readEscape (es ++ rest) = (some c, rest) := by
  cases h with
  | @short letter _ h =>
    have hu : letter ≠ 'u' := by
      have hall : ∀ p ∈ shortEscapes, p.1 ≠ 'u' := by decide
      exact hall _ h
    exact (readEscape_letter_iff hu).2 ⟨h, rfl⟩
  | @code ds _ hds =>
    show readCodePoint (ds ++ rest) = _
    rw [readCodePoint_whole (readHex_eq_some_iff.2 ⟨ds, hds, rfl⟩) (not_isHigh_toNat c)
      (not_isLow_toNat c), Char.ofNat_toNat]
  | @pair hs ls _ h hhs hls =>
    obtain ⟨hhigh, hlow, hpair⟩ := ofPair_halves h
    have hhex : readHex 4 0 (hs ++ '\\' :: 'u' :: (ls ++ rest)) = _ :=
      readHex_eq_some_iff.2 ⟨hs, hhs, rfl⟩
    show readCodePoint (hs ++ '\\' :: 'u' :: ls ++ rest) = _
    rw [List.append_assoc]
    exact (readCodePoint_pair hhex hhigh).trans
      (readLow_eq_some_iff.2 ⟨ls, _, hls, hlow, hpair, rfl⟩)

theorem readEscape_of_badEscape (h : BadEscape cs) : (readEscape cs).1 = none := by
  cases h with
  | nothing => rfl
  | @letter letter cs hu h =>
    cases hc : (readEscape (letter :: cs)).1 with
    | none => rfl
    | some c => exact absurd ((readEscape_letter_iff hu).1 (Prod.ext hc rfl)).1 (h c)
  | @noCode cs h =>
    rcases hhex : readHex 4 0 cs with ⟨_ | n, rest⟩
    · exact congrArg Prod.fst (readCodePoint_of_none hhex)
    · obtain ⟨ds, hds, hcs⟩ := readHex_eq_some_iff.1 hhex
      exact absurd hcs (h ds n rest hds)
  | @unpairedHigh ds rest n hds hn h =>
    have hhex : readHex 4 0 (ds ++ rest) = _ := readHex_eq_some_iff.2 ⟨ds, hds, rfl⟩
    show (readCodePoint (ds ++ rest)).1 = none
    by_cases hrest : ∃ ls, rest = '\\' :: 'u' :: ls
    · obtain ⟨ls, rfl⟩ := hrest
      rw [readCodePoint_pair hhex hn]
      cases hc : (readLow n ls).1 with
      | none => rfl
      | some c =>
        obtain ⟨ms, low, hms, hlow, -, hls⟩ := readLow_eq_some_iff.1 (Prod.ext hc rfl)
        exact absurd (by rw [hls]) (h ms low _ hms hlow)
    · rw [readCodePoint_half hhex hn fun ls hls => hrest ⟨ls, hls⟩]
  | @unpairedLow ds rest n hds hn =>
    exact congrArg Prod.fst (readCodePoint_low (readHex_eq_some_iff.2 ⟨ds, hds, rfl⟩) hn)

/-- After a backslash there is an escape, or what is none. -/
theorem escapes_or_badEscape (cs : List Char) :
    (∃ es c rest, Escapes es c ∧ cs = es ++ rest) ∨ BadEscape cs := by
  cases cs with
  | nil => exact .inr .nothing
  | cons letter cs =>
    by_cases hu : letter = 'u'
    · subst hu
      by_cases hcode : ∃ ds n rest, IsHexCode ds n ∧ cs = ds ++ rest
      · obtain ⟨ds, n, rest, hds, rfl⟩ := hcode
        by_cases hlow : IsLow n
        · exact .inr (.unpairedLow hds hlow)
        by_cases hhigh : IsHigh n
        · by_cases hpair : ∃ ls m rest', (IsHexCode ls m ∧ IsLow m) ∧
              rest = '\\' :: 'u' :: (ls ++ rest')
          · obtain ⟨ls, m, rest', ⟨hls, hm⟩, rfl⟩ := hpair
            obtain ⟨hle, heqHigh, heqLow⟩ := halves_ofPair hhigh hm
            refine .inl ⟨'u' :: (ds ++ '\\' :: 'u' :: ls), ofPair n m, rest', .pair hle ?_ ?_, ?_⟩
            · rwa [heqHigh]
            · rwa [heqLow]
            · simp only [List.cons_append, List.append_assoc]
          · exact .inr (.unpairedHigh hds hhigh fun ls m rest' hls hm hrest =>
              hpair ⟨ls, m, rest', ⟨hls, hm⟩, hrest⟩)
        · refine .inl ⟨'u' :: ds, Char.ofNat n, rest, .code ?_, rfl⟩
          rwa [toNat_ofNat (isValidChar_of_isHexCode hds hhigh hlow)]
      · exact .inr (.noCode fun ds n rest hds hcs => hcode ⟨ds, n, rest, hds, hcs⟩)
    · by_cases hshort : ∃ c, (letter, c) ∈ shortEscapes
      · obtain ⟨c, hc⟩ := hshort
        exact .inl ⟨[letter], c, cs, .short hc, rfl⟩
      · exact .inr (.letter hu fun c hc => hshort ⟨c, hc⟩)

theorem escapes_of_readEscape (h : readEscape cs = (some c, rest)) :
    ∃ es, Escapes es c ∧ cs = es ++ rest := by
  rcases escapes_or_badEscape cs with ⟨es, d, rest', hes, rfl⟩ | hbad
  · rw [readEscape_of_escapes hes] at h
    cases h
    exact ⟨es, hes, rfl⟩
  · have := readEscape_of_badEscape hbad
    rw [h] at this
    cases this

theorem badEscape_of_readEscape (h : readEscape cs = (none, rest)) : BadEscape cs := by
  rcases escapes_or_badEscape cs with ⟨es, d, rest', hes, rfl⟩ | hbad
  · rw [readEscape_of_escapes hes] at h
    cases h
  · exact hbad

end Escapes

section Texts

variable {quote : Char} {body s cs escape rest : List Char}

theorem readText_of_encodes (hquote : '\\' ≠ quote) (h : Encodes quote body s)
    (rest : List Char) :
    readText quote (body ++ rest) =
      ((readText quote rest).1.map (s ++ ·), (readText quote rest).2) := by
  have hmap : ∀ (c : Char) (s : List Char) (e : Except LexicalFault (List Char)),
      (e.map (s ++ ·)).map (c :: ·) = e.map (c :: s ++ ·) := fun _ _ e => by cases e <;> rfl
  induction h with
  | nil =>
    rw [List.nil_append]
    rcases readText quote rest with ⟨_ | _, _⟩ <;> rfl
  | plain hc hescape _ ih =>
    rw [List.cons_append, readText_plain hc hescape, ih]
    exact congrArg (·, _) (hmap _ _ _)
  | @escape es _ _ _ hes _ ih =>
    rw [List.cons_append, List.append_assoc,
      readText_escape hquote (readEscape_of_escapes hes _), ih]
    exact congrArg (·, _) (hmap _ _ _)

/-- What may follow an opening quote. -/
theorem encodes_cases (quote : Char) (cs : List Char) :
    (∃ body s rest, Encodes quote body s ∧ cs = body ++ quote :: rest) ∨
      (∃ body s escape, Encodes quote body s ∧ BadEscape escape ∧ cs = body ++ '\\' :: escape) ∨
      ∃ s, Encodes quote cs s := by
  induction cs using readText.induct quote with
  | case1 => exact .inr (.inr ⟨[], .nil⟩)
  | case2 rest => exact .inl ⟨[], [], rest, .nil, rfl⟩
  | case3 rest c rest' h _ _ ih =>
    obtain ⟨es, hes, rfl⟩ := escapes_of_readEscape h
    rcases ih with ⟨body, s, after, hs, rfl⟩ | ⟨body, s, escape, hs, hbad, rfl⟩ | ⟨s, hs⟩
    · exact .inl ⟨_, _, after, .escape hes hs, by simp only [List.cons_append, List.append_assoc]⟩
    · exact .inr (.inl ⟨_, _, escape, .escape hes hs, hbad,
        by simp only [List.cons_append, List.append_assoc]⟩)
    · exact .inr (.inr ⟨_, .escape hes hs⟩)
  | case4 rest rest' h _ =>
    exact .inr (.inl ⟨[], [], rest, .nil, badEscape_of_readEscape h, rfl⟩)
  | case5 c rest hquote hescape ih =>
    rcases ih with ⟨body, s, after, hs, rfl⟩ | ⟨body, s, escape, hs, hbad, rfl⟩ | ⟨s, hs⟩
    · exact .inl ⟨_, _, after, .plain hquote hescape hs, rfl⟩
    · exact .inr (.inl ⟨_, _, escape, .plain hquote hescape hs, hbad, rfl⟩)
    · exact .inr (.inr ⟨_, .plain hquote hescape hs⟩)

theorem readText_closed (hquote : '\\' ≠ quote) (h : Encodes quote body s) (rest : List Char) :
    readText quote (body ++ quote :: rest) = (.ok s, rest) := by
  rw [readText_of_encodes hquote h, readText_close, Except.map, List.append_nil]

theorem readText_broken (hquote : '\\' ≠ quote) (h : Encodes quote body s)
    (hbad : BadEscape escape) :
    readText quote (body ++ '\\' :: escape) = (.error .badEscape, (readEscape escape).2) := by
  have hnone : readEscape escape = (none, (readEscape escape).2) :=
    Prod.ext (readEscape_of_badEscape hbad) rfl
  rw [readText_of_encodes hquote h, readText_badEscape hquote hnone, Except.map]

theorem readText_open (hquote : '\\' ≠ quote) (h : Encodes quote body s) :
    readText quote body = (.error .openText, []) := by
  have hread := readText_of_encodes hquote h []
  rw [List.append_nil, readText] at hread
  exact hread

end Texts

end Token

namespace Lexeme

open Token

variable {quote : Char} {gap : List Char}

theorem scanFrom_quote (hquote : quote = '"' ∨ quote = '\'') (hgap : IsLayout gap) (place : Nat)
    (cs : List Char) :
    let size := place + width (gap ++ quote :: cs)
    scanFrom size (gap ++ quote :: cs) =
      ⟨ofText (readText quote cs).1, place + width gap, size - width (readText quote cs).2⟩ ::
        scanFrom size (readText quote cs).2 := by
  intro size
  have hdrop : Trivia.drop (gap ++ quote :: cs) = quote :: cs := by
    rw [Trivia.drop_append hgap]
    rcases hquote with rfl | rfl <;> exact Trivia.drop_eq_self (by decide) nofun nofun
  rw [scanFrom_of_drop_cons hdrop, read_of_quote hquote]
  have hstart : size - width (quote :: cs) = place + width gap := by
    simp only [size, width_append]
    omega
  rw [hstart]

/-- A literal is one token, which is its text and spans all of it, if each of its characters is
encoded in one of the ways that there are. If it goes on with something that is no escape, or does
not end, there is a fault instead of a text. Every literal is one of these. -/
theorem scan_literals (hquote : quote = '"' ∨ quote = '\'') (hgap : IsLayout gap) (place : Nat) :
    (∀ (body : List Char) (s : String) (rest : List Char), Encodes quote body s.toList →
      let literal := quote :: (body ++ [quote])
      let size := place + width (gap ++ (literal ++ rest))
      scanFrom size (gap ++ (literal ++ rest)) =
        ⟨.text s, place + width gap, place + width gap + width literal⟩ :: scanFrom size rest) ∧
    (∀ body s escape, Encodes quote body s → BadEscape escape →
      let literal := quote :: (body ++ '\\' :: escape)
      let size := place + width (gap ++ literal)
      ∃ stop rest, rest <:+ escape ∧
        scanFrom size (gap ++ literal) =
          ⟨.invalid .badEscape, place + width gap, stop⟩ :: scanFrom size rest) ∧
    (∀ body s, Encodes quote body s →
      let size := place + width (gap ++ quote :: body)
      scanFrom size (gap ++ quote :: body) = [⟨.invalid .openText, place + width gap, size⟩]) ∧
    ∀ cs, (∃ body s rest, Encodes quote body s ∧ cs = body ++ quote :: rest) ∨
      (∃ body s escape, Encodes quote body s ∧ BadEscape escape ∧ cs = body ++ '\\' :: escape) ∨
      ∃ s, Encodes quote cs s := by
  have hne : '\\' ≠ quote := by rcases hquote with rfl | rfl <;> decide
  refine ⟨?closed, ?broken, ?unended, encodes_cases quote⟩
  case closed =>
    intro body s rest h literal size
    have hliteral : literal ++ rest = quote :: (body ++ quote :: rest) := by
      simp only [literal, List.cons_append, List.append_assoc, List.nil_append]
    have hstop : size - width rest = place + width gap + width literal := by
      simp only [size, width_append]
      omega
    have hscan := scanFrom_quote hquote hgap place (body ++ quote :: rest)
    rw [readText_closed hne h, ← hliteral] at hscan
    rw [← hstop]
    simpa only [ofText, String.ofList_toList] using hscan
  case broken =>
    intro body s escape h hbad literal size
    obtain ⟨slice, hslice, -⟩ := readsAhead_readEscape escape
    have hscan := scanFrom_quote hquote hgap place (body ++ '\\' :: escape)
    rw [readText_broken hne h hbad] at hscan
    exact ⟨_, _, ⟨slice, hslice.symm⟩, hscan⟩
  case unended =>
    intro body s h size
    have hscan := scanFrom_quote hquote hgap place body
    rw [readText_open hne h] at hscan
    rw [hscan, scanFrom_of_drop_nil Trivia.drop_nil]
    rfl

theorem scan_literals_single :
    Encodes '\'' "a\\u00E9\\uD83d\\uDE00\\'".toList "aé😀'".toList ∧ BadEscape "ud800 ".toList ∧
      scan " 'a\\u00E9\\uD83d\\uDE00\\''" = [⟨.text "aé😀'", 1, 24⟩] ∧
      (∃ stop rest, scan " 'a\\u00E9\\uD83d\\uDE00\\'\\ud800 " =
        ⟨.invalid .badEscape, 1, stop⟩ :: rest) ∧
      scan " 'a\\u00E9\\uD83d\\uDE00\\'" = [⟨.invalid .openText, 1, 23⟩] := by
  have hacute : Escapes ['u', '0', '0', 'E', '9'] 'é' := .code (by decide)
  have hface : Escapes ['u', 'D', '8', '3', 'd', '\\', 'u', 'D', 'E', '0', '0'] '😀' :=
    @Escapes.pair ['D', '8', '3', 'd'] ['D', 'E', '0', '0'] '😀' (by decide) (by decide) (by decide)
  have hmark : Escapes ['\''] '\'' := .short (by decide)
  have hbody : Encodes '\'' "a\\u00E9\\uD83d\\uDE00\\'".toList "aé😀'".toList :=
    @Encodes.plain '\'' 'a' _ _ (by decide) (by decide)
      (.escape hacute (.escape hface (.escape hmark .nil)))
  have hhalf : BadEscape "ud800 ".toList :=
    @BadEscape.unpairedHigh ['d', '8', '0', '0'] [' '] 0xD800 (by decide)
      ⟨by decide, by decide⟩ nofun
  obtain ⟨hclosed, hbroken, hunended, -⟩ :=
    @scan_literals '\'' [' '] (.inr rfl) (.blank (by decide) .nil) 0
  obtain ⟨stop, rest, -, hscan⟩ := hbroken _ _ _ hbody hhalf
  refine ⟨hbody, hhalf, (hclosed _ _ [] hbody).trans ?_, ⟨stop, _, hscan⟩, hunended _ _ hbody⟩
  rw [scanFrom_of_drop_nil Trivia.drop_nil]
  rfl

end Lexeme

end StoreQuery

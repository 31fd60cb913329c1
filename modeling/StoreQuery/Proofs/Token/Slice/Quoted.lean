import StoreQuery.Proofs.Token.Ending
import StoreQuery.Proofs.Token.Literal

/-! # Quoted texts read again

A literal that ends with its quote reads again in front of anything. One that breaks off at a bad
escape does so too, but for the escape of the first half of a surrogate pair: the literal goes on if
the escape of the second half follows.
-/

namespace StoreQuery

open Text

namespace Token

/-- Whether an escape of a code point begins here. -/
def StartsEscape (cs : List Char) : Prop :=
  ['\\', 'u'] <+: cs

/-- Whether the characters that a reader takes give the same when anything follows them. Where the
reader fails, the end of the text has to stay one, and behind what the reader has opened there may
not come an escape where there was none. -/
def ReadsAhead {α : Type} (read : List Char → Option α × List Char) (opens : List Char → Prop)
    (cs : List Char) : Prop :=
  ∃ slice, cs = slice ++ (read cs).2 ∧
    ∀ rest, (read cs).1.isSome ∨ ((read cs).2 = [] → rest = []) ∧
        (opens slice → StartsEscape rest → StartsEscape (read cs).2) →
      read (slice ++ rest) = ((read cs).1, rest)

section Texts

variable {count n high : Nat} {c : Char} {cs rest : List Char}

theorem readHex_of_some {d : Nat} (h : hexValue? c = some d) :
    readHex (count + 1) n (c :: cs) = readHex count (n * 16 + d) cs := by
  rw [readHex, h]

theorem readHex_of_none (h : hexValue? c = none) :
    readHex (count + 1) n (c :: cs) = (none, cs) := by
  rw [readHex, h]

def opensNothing (_ : List Char) : Prop :=
  False

theorem readsAhead_readHex (count n : Nat) (cs : List Char) :
    ReadsAhead (readHex count n) opensNothing cs := by
  induction count generalizing n cs with
  | zero => exact ⟨[], rfl, fun _ _ => rfl⟩
  | succ count ih =>
    cases cs with
    | nil =>
      refine ⟨[], rfl, ?_⟩
      rintro rest (h | ⟨h, -⟩)
      · cases h
      · rw [h rfl]
        rfl
    | cons c cs =>
      cases hc : hexValue? c with
      | none =>
        refine ⟨[c], by rw [readHex_of_none hc]; rfl, fun rest _ => ?_⟩
        rw [readHex_of_none hc]
        exact readHex_of_none hc
      | some d =>
        obtain ⟨slice, hcs, hread⟩ := ih (n * 16 + d) cs
        refine ⟨c :: slice, by rw [readHex_of_some hc, List.cons_append, ← hcs], ?_⟩
        rw [readHex_of_some hc]
        intro rest h
        rw [List.cons_append, readHex_of_some hc, hread rest h]

/-- Whether a number is the first half of a surrogate pair. -/
def IsHigh (n : Nat) : Prop :=
  0xD800 ≤ n ∧ n < 0xDC00

def readLow (high : Nat) (cs : List Char) : Option Char × List Char :=
  match readHex 4 0 cs with
  | (none, rest) => (none, rest)
  | (some low, rest) =>
    if 0xDC00 ≤ low ∧ low < 0xE000 then
      (some (Char.ofNat (0x10000 + (high - 0xD800) * 0x400 + (low - 0xDC00))), rest)
    else (none, rest)

theorem readLow_of_none (h : readHex 4 0 cs = (none, rest)) : readLow high cs = (none, rest) := by
  rw [readLow, h]

theorem readLow_of_some {low : Nat} (h : readHex 4 0 cs = (some low, rest)) :
    readLow high cs =
      (if 0xDC00 ≤ low ∧ low < 0xE000 then
        some (Char.ofNat (0x10000 + (high - 0xD800) * 0x400 + (low - 0xDC00)))
      else none, rest) := by
  rw [readLow, h]
  dsimp only
  split <;> rfl

theorem readCodePoint_of_none (h : readHex 4 0 cs = (none, rest)) :
    readCodePoint cs = (none, rest) := by
  rw [readCodePoint, h]

theorem readCodePoint_pair (h : readHex 4 0 cs = (some high, '\\' :: 'u' :: rest))
    (hhigh : IsHigh high) : readCodePoint cs = readLow high rest := by
  rw [readCodePoint, h]
  exact if_pos hhigh

theorem readCodePoint_half (h : readHex 4 0 cs = (some high, rest)) (hhigh : IsHigh high)
    (hrest : ∀ ds, rest ≠ '\\' :: 'u' :: ds) : readCodePoint cs = (none, rest) := by
  rw [readCodePoint, h]
  dsimp only
  rw [if_pos (show 0xD800 ≤ high ∧ high < 0xDC00 from hhigh)]
  split
  · next ds => exact absurd rfl (hrest ds)
  · rfl

theorem readCodePoint_single (h : readHex 4 0 cs = (some high, rest)) (hhigh : ¬IsHigh high) :
    readCodePoint cs =
      (if 0xDC00 ≤ high ∧ high < 0xE000 then none else some (Char.ofNat high), rest) := by
  rw [readCodePoint, h]
  dsimp only
  rw [if_neg (show ¬(0xD800 ≤ high ∧ high < 0xDC00) from hhigh)]
  split <;> rfl

theorem readsAhead_readLow (high : Nat) (cs : List Char) :
    ReadsAhead (readLow high) opensNothing cs := by
  obtain ⟨slice, hcs, hread⟩ := readsAhead_readHex 4 0 cs
  rcases h : readHex 4 0 cs with ⟨_ | low, after⟩
  · rw [h] at hcs hread
    refine ⟨slice, by rw [readLow_of_none h, ← hcs], ?_⟩
    rw [readLow_of_none h]
    exact fun rest hrest => readLow_of_none (hread rest hrest)
  · rw [h] at hcs hread
    refine ⟨slice, by rw [readLow_of_some h, ← hcs], fun rest _ => ?_⟩
    rw [readLow_of_some h, readLow_of_some (hread rest (.inl rfl))]

/-- Whether some characters are the digits of the first half of a surrogate pair. -/
def OpensPair (digits : List Char) : Prop :=
  ∃ high, readHex 4 0 digits = (some high, []) ∧ IsHigh high

theorem readsAhead_readCodePoint (cs : List Char) : ReadsAhead readCodePoint OpensPair cs := by
  obtain ⟨slice, hcs, hread⟩ := readsAhead_readHex 4 0 cs
  rcases h : readHex 4 0 cs with ⟨_ | high, after⟩
  · rw [h] at hcs hread
    refine ⟨slice, by rw [readCodePoint_of_none h, ← hcs], ?_⟩
    rw [readCodePoint_of_none h]
    rintro rest (hrest | ⟨hend, -⟩)
    · cases hrest
    · exact readCodePoint_of_none (hread rest (.inr ⟨hend, nofun⟩))
  · rw [h] at hcs hread
    by_cases hhigh : IsHigh high
    · by_cases hpair : StartsEscape after
      · obtain ⟨ds, hafter⟩ := hpair
        obtain rfl : after = '\\' :: 'u' :: ds := hafter.symm
        obtain ⟨low, hds, hlow⟩ := readsAhead_readLow high ds
        refine ⟨slice ++ '\\' :: 'u' :: low, ?_, ?_⟩
        · rw [readCodePoint_pair h hhigh, List.append_assoc, List.cons_append, List.cons_append,
            ← hds]
          exact hcs
        · rw [readCodePoint_pair h hhigh]
          intro rest hrest
          rw [List.append_assoc]
          refine (readCodePoint_pair (hread _ (.inl rfl)) hhigh).trans (hlow rest ?_)
          exact hrest.imp_right fun hend => ⟨hend.1, nofun⟩
      · have hhalf : ∀ {rest}, ¬StartsEscape rest → ∀ ds, rest ≠ '\\' :: 'u' :: ds :=
          fun hrest ds hds => hrest ⟨ds, hds.symm⟩
        refine ⟨slice, by rw [readCodePoint_half h hhigh (hhalf hpair), ← hcs], ?_⟩
        rw [readCodePoint_half h hhigh (hhalf hpair)]
        rintro rest (hrest | ⟨-, hrest⟩)
        · cases hrest
        · have hopens : OpensPair slice := ⟨high, by simpa using hread [] (.inl rfl), hhigh⟩
          exact readCodePoint_half (hread _ (.inl rfl)) hhigh
            (hhalf fun h => hpair (hrest hopens h))
    · refine ⟨slice, by rw [readCodePoint_single h hhigh, ← hcs], fun rest _ => ?_⟩
      rw [readCodePoint_single h hhigh, readCodePoint_single (hread _ (.inl rfl)) hhigh]

/-- Every escape but that of a code point takes its letter and nothing else. -/
theorem readEscape_of_ne (hc : c ≠ 'u') (cs : List Char) :
    readEscape (c :: cs) = ((readEscape [c]).1, cs) := by
  unfold readEscape
  dsimp only
  split <;> first | rfl | contradiction

/-- Whether some characters are the escape of the first half of a surrogate pair, after its
backslash. -/
def EscapesHalf (cs : List Char) : Prop :=
  ∃ digits, cs = 'u' :: digits ∧ OpensPair digits

theorem readsAhead_readEscape (cs : List Char) : ReadsAhead readEscape EscapesHalf cs := by
  cases cs with
  | nil =>
    refine ⟨[], rfl, ?_⟩
    rintro rest (h | ⟨h, -⟩)
    · cases h
    · rw [h rfl]
      rfl
  | cons c cs =>
    by_cases hu : c = 'u'
    · subst hu
      obtain ⟨slice, hcs, hread⟩ := readsAhead_readCodePoint cs
      refine ⟨'u' :: slice, congrArg _ hcs, fun rest hrest => hread rest ?_⟩
      exact hrest.imp_right fun hend => ⟨hend.1, fun hopens => hend.2 ⟨slice, rfl, hopens⟩⟩
    · refine ⟨[c], by rw [readEscape_of_ne hu]; rfl, fun rest _ => ?_⟩
      rw [List.singleton_append, readEscape_of_ne hu, readEscape_of_ne hu cs]

theorem readText_badEscape {quote : Char} (hquote : '\\' ≠ quote)
    (h : readEscape cs = (none, rest)) :
    readText quote ('\\' :: cs) = (.error .badEscape, rest) := by
  rw [readText, if_neg hquote, if_pos rfl]
  split
  · next d' rest' h' =>
    rw [h] at h'
    cases h'
  · next rest' h' =>
    rw [h] at h'
    cases h'
    rfl

theorem readText_close (quote : Char) (cs : List Char) :
    readText quote (quote :: cs) = (.ok [], cs) := by
  rw [readText, if_pos rfl]

/-- Whether a literal breaks off after the first half of a surrogate pair, its opening quote having
been read. -/
def BreaksPair (quote : Char) (cs : List Char) : Prop :=
  ∃ body escape s, cs = body ++ '\\' :: escape ∧
    readText quote (body ++ [quote]) = (.ok s, []) ∧ EscapesHalf escape

theorem BreaksPair.plain {quote : Char} {slice : List Char} (h : BreaksPair quote slice)
    (hquote : c ≠ quote) (hescape : c ≠ '\\') : BreaksPair quote (c :: slice) := by
  obtain ⟨body, half, s, rfl, hbody, hhalf⟩ := h
  refine ⟨c :: body, half, c :: s, rfl, ?_, hhalf⟩
  rw [List.cons_append, readText_plain hquote hescape, hbody]
  rfl

theorem BreaksPair.escape {quote d : Char} {escape slice : List Char} (h : BreaksPair quote slice)
    (hquote : '\\' ≠ quote) (hescape : ∀ cs, readEscape (escape ++ cs) = (some d, cs)) :
    BreaksPair quote ('\\' :: (escape ++ slice)) := by
  obtain ⟨body, half, s, rfl, hbody, hhalf⟩ := h
  refine ⟨'\\' :: (escape ++ body), half, d :: s, ?_, ?_, hhalf⟩
  · rw [List.cons_append, List.append_assoc]
  · rw [List.cons_append, List.append_assoc, readText_escape hquote (hescape _), hbody]
    rfl

/-- A literal reads again. If it breaks off after half a pair, no escape may follow that did not
follow before. -/
theorem readText_slice {quote : Char} (cs : List Char) :
    ∃ slice, cs = slice ++ (readText quote cs).2 ∧
      ∀ rest, EndsLike (readText quote cs).2 rest →
        (BreaksPair quote slice → StartsEscape rest → StartsEscape (readText quote cs).2) →
        readText quote (slice ++ rest) = ((readText quote cs).1, rest) := by
  induction cs using readText.induct quote with
  | case1 =>
    refine ⟨[], by rw [readText]; rfl, fun rest hrest _ => ?_⟩
    rw [readText] at hrest ⊢
    rw [hrest.eq_nil, List.nil_append, readText]
  | case2 rest =>
    rw [readText_close]
    exact ⟨[quote], rfl, fun rest _ _ => readText_close quote rest⟩
  | case3 rest d rest' h _ hquote ih =>
    -- The escape is read in front of the rest of the literal, so it is read in front of its slice.
    obtain ⟨escape, hrest, hescape⟩ := readsAhead_readEscape rest
    obtain ⟨slice, hrest', hslice⟩ := ih
    rw [h] at hrest hescape
    rw [readText_escape hquote h]
    have hsome : ∀ cs, readEscape (escape ++ cs) = (some d, cs) :=
      fun cs => hescape cs (.inl rfl)
    refine ⟨'\\' :: (escape ++ slice), ?_, fun after hlike hpair => ?_⟩
    · rw [List.cons_append, List.append_assoc, ← hrest', ← hrest]
    · rw [List.cons_append, List.append_assoc, readText_escape hquote (hsome _),
        hslice after hlike fun hbreaks => hpair (hbreaks.escape hquote hsome)]
  | case4 rest rest' h hquote =>
    obtain ⟨escape, hrest, hescape⟩ := readsAhead_readEscape rest
    rw [h] at hrest hescape
    rw [readText_badEscape hquote h]
    refine ⟨'\\' :: escape, by rw [List.cons_append, ← hrest], fun after hlike hpair => ?_⟩
    apply readText_badEscape hquote (hescape after (.inr ⟨?_, fun hhalf => hpair ?_⟩))
    · rintro rfl
      exact hlike.eq_nil
    · exact ⟨[], escape, [], rfl, readText_close quote [], hhalf⟩
  | case5 c rest hquote hescape ih =>
    obtain ⟨slice, hrest, hslice⟩ := ih
    rw [readText_plain hquote hescape]
    refine ⟨c :: slice, by rw [List.cons_append, ← hrest], fun after hlike hpair => ?_⟩
    rw [List.cons_append, readText_plain hquote hescape,
      hslice after hlike fun hbreaks => hpair (hbreaks.plain hquote hescape)]

end Texts

end Token

end StoreQuery

import StoreQuery.Proofs.Token.Layout

/-! # Pieces of a text

Tokens that stand together can be cut out of a text: the characters from where the first of them
begins to where the last one ends have these tokens and no others. Cutting in front of a token drops
layout, and cutting behind one leaves the end of the text, which ends every token.
-/

namespace StoreQuery

open Text

namespace Lexeme

/-- The place where the last of some lexemes ends that come after a place. -/
def lastStop (place : Nat) : List Lexeme → Nat
  | [] => place
  | l :: ls => lastStop l.span.stop ls

/-- The span from where the first of some lexemes begins to where the last one ends. -/
def cover : List Lexeme → Span
  | [] => .point 0
  | l :: ls => ⟨l.span.start, lastStop l.span.stop ls⟩

variable {cs gap gap' slice before after : List Char} {c : Char} {t : Token} {l : Lexeme}
  {ls later : List Lexeme} {place size : Nat}

/-- Behind any layout, the first token stays the same where the text is cut behind it. -/
theorem Begins.tokens_cut (h : Begins cs gap c slice (before ++ after) t) (hgap : IsLayout gap') :
    tokens (gap' ++ c :: (slice ++ before)) = t :: tokens before := by
  have hlike : Token.EndsLike (before ++ after) before := by
    simpa using (@Token.EndsLike.nil after).append before
  have hscan := h.scanFrom_eq 0 hgap hlike fun _ hescape => hescape.trans (List.prefix_append ..)
  rw [tokens, hscan, List.map_cons, tokens]

theorem exists_begins_of_scanFrom (hsize : place + width cs = size)
    (h : scanFrom size cs = l :: ls) :
    ∃ gap c slice rest, Begins cs gap c slice rest l.token ∧
      l.span = ⟨place + width gap, place + width gap + width (c :: slice)⟩ ∧
      scanFrom size rest = ls ∧ place + width gap + width (c :: slice) + width rest = size := by
  cases hdrop : Trivia.drop cs with
  | nil =>
    rw [scanFrom_of_drop_nil hdrop] at h
    cases h
  | cons c rest =>
    obtain ⟨gap, slice, hbegins⟩ := exists_begins hdrop
    obtain ⟨hscan, hrest⟩ := hbegins.scanFrom_cons hsize
    rw [hscan] at h
    obtain ⟨rfl, rfl⟩ := List.cons.inj h
    exact ⟨gap, c, slice, _, hbegins, rfl, rfl, hrest⟩

theorem exists_cut (hsize : place + width cs = size) (h : scanFrom size cs = ls ++ later) :
    ∃ before after, cs = before ++ after ∧ tokens before = ls.map token ∧
      lastStop place ls = place + width before := by
  induction ls generalizing cs place with
  | nil => exact ⟨[], cs, rfl, tokens_nil, rfl⟩
  | cons l ls ih =>
    obtain ⟨gap, c, slice, rest, hbegins, hspan, hscan, hrest⟩ :=
      exists_begins_of_scanFrom hsize h
    obtain ⟨before, after, rfl, htokens, hstop⟩ := ih hrest hscan
    refine ⟨gap ++ c :: (slice ++ before), after, ?_, ?_, ?_⟩
    · rw [hbegins.eq_append]
      simp only [List.append_assoc, List.cons_append]
    · rw [hbegins.tokens_cut hbegins.isLayout, htokens, List.map_cons]
    · rw [lastStop, hspan, hstop]
      simp only [width_append, width_cons]
      omega

/-- Lexemes that stand together are those of the characters that they cover. -/
theorem exists_piece {earlier : List Lexeme} (hne : ls ≠ []) (hsize : place + width cs = size)
    (h : scanFrom size cs = earlier ++ (ls ++ later)) :
    ∃ before slice after, cs = before ++ (slice ++ after) ∧
      cover ls = ⟨place + width before, place + width before + width slice⟩ ∧
      tokens slice = ls.map token := by
  induction earlier generalizing cs place with
  | nil =>
    obtain ⟨l, ls, rfl⟩ := List.exists_cons_of_ne_nil hne
    obtain ⟨gap, c, slice, rest, hbegins, hspan, hscan, hrest⟩ :=
      exists_begins_of_scanFrom hsize h
    obtain ⟨before, after, rfl, htokens, hstop⟩ := exists_cut hrest hscan
    refine ⟨gap, c :: (slice ++ before), after, ?_, ?_, ?_⟩
    · rw [hbegins.eq_append]
      simp only [List.append_assoc, List.cons_append]
    · rw [cover, hspan, hstop]
      simp only [width_append, width_cons, Span.mk.injEq, true_and]
      omega
    · rw [← List.nil_append (c :: _), hbegins.tokens_cut .nil, htokens, List.map_cons]
  | cons l earlier ih =>
    obtain ⟨gap, c, slice, rest, hbegins, -, hscan, hrest⟩ := exists_begins_of_scanFrom hsize h
    obtain ⟨before, slice', after, rfl, hcover, htokens⟩ := ih hrest hscan
    refine ⟨gap ++ c :: (slice ++ before), slice', after, ?_, ?_, htokens⟩
    · rw [hbegins.eq_append]
      simp only [List.append_assoc, List.cons_append]
    · rw [hcover]
      simp only [width_append, width_cons, Span.mk.injEq]
      omega

theorem tokens_cover {text : String} (h : ls <:+: scan text) :
    tokens ((cover ls).text text.toList) = ls.map token := by
  obtain ⟨earlier, later, hscan⟩ := h
  cases ls with
  | nil =>
    have hempty : (cover []).text text.toList = [] := @text_span [] [] text.toList
    rw [hempty, tokens_nil, List.map_nil]
  | cons l ls =>
    rw [List.append_assoc] at hscan
    obtain ⟨before, slice, after, htext, hcover, htokens⟩ :=
      exists_piece (List.cons_ne_nil l ls) (Nat.zero_add _) hscan.symm
    rw [hcover, htext, Nat.zero_add, text_span, htokens]

end Lexeme

end StoreQuery

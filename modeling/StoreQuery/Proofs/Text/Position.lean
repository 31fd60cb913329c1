import Mathlib.Data.Prod.Lex
import StoreQuery.Text.Span

/-! # Lines and columns

The line and the column of a place count what stands before it: the line breaks, and the characters
behind the last of them. Going on in a text either meets another line break or moves to the right in
the same line, so that no two places between characters have the same line and column.
-/

namespace StoreQuery

namespace Text

/-- Whether a place lies between two characters of a text, or at one of its ends. -/
def IsBoundary (text : List Char) (place : Nat) : Prop :=
  ∃ before after, text = before ++ after ∧ place = width before

/-- Whether some characters are split behind their last line break. -/
structure IsLastLine (lines last : List Char) : Prop where
  not_mem : '\n' ∉ last
  ends : lines = [] ∨ lines.getLast? = some '\n'

variable {before after lines last text : List Char}

theorem IsBoundary.le_width {place : Nat} (h : IsBoundary text place) : place ≤ width text := by
  obtain ⟨before, after, rfl, rfl⟩ := h
  rw [width_append]
  exact Nat.le_add_right _ _

theorem exists_between {before' after' : List Char} (h : before ++ after = before' ++ after')
    (hlt : width before < width before') :
    ∃ between, between ≠ [] ∧ before' = before ++ between := by
  rcases List.append_eq_append_iff.1 h with ⟨between, rfl, -⟩ | ⟨between, rfl, -⟩
  · refine ⟨between, ?_, rfl⟩
    rintro rfl
    rw [List.append_nil] at hlt
    exact absurd hlt (Nat.lt_irrefl _)
  · rw [width_append] at hlt
    omega

theorem takeWhile_reverse_of_isLastLine (h : IsLastLine lines last) :
    (lines ++ last).reverse.takeWhile (· != '\n') = last.reverse := by
  have hlast : ∀ c ∈ last.reverse, (c != '\n') = true := by
    intro c hc
    rw [bne_iff_ne]
    rintro rfl
    exact h.not_mem (List.mem_reverse.1 hc)
  rw [List.reverse_append, List.takeWhile_append_of_pos hlast]
  rcases h.ends with rfl | hends
  · rw [List.reverse_nil, List.takeWhile_nil, List.append_nil]
  · rw [← List.head?_reverse] at hends
    obtain ⟨cs, hcs⟩ := List.head?_eq_some_iff.1 hends
    rw [hcs, List.takeWhile_cons_of_neg (by decide), List.append_nil]

theorem exists_isLastLine (cs : List Char) :
    ∃ lines last, cs = lines ++ last ∧ IsLastLine lines last := by
  refine ⟨(cs.reverse.dropWhile (· != '\n')).reverse, (cs.reverse.takeWhile (· != '\n')).reverse,
    ?_, ?_, ?_⟩
  · rw [← List.reverse_append, List.takeWhile_append_dropWhile, List.reverse_reverse]
  · intro hmem
    have hne := List.all_eq_true.1 List.all_takeWhile _ (List.mem_reverse.1 hmem)
    exact absurd hne (by decide)
  · rw [List.reverse_eq_nil_iff, List.getLast?_reverse]
    have hhead := List.head?_dropWhile_not (· != '\n') cs.reverse
    cases h : cs.reverse.dropWhile (· != '\n') with
    | nil => exact Or.inl rfl
    | cons c ds =>
      rw [h] at hhead
      exact Or.inr (by simpa using hhead)

end Text

namespace Span

open Text

variable {s s' : Span} {before between after lines last text : List Char}

/-- At a boundary the text can be split, and the part before it is what is counted. -/
theorem before_append (hs : s.start = width before) : s.before (before ++ after) = before := by
  have hle : s.start ≤ width (before ++ after) := by
    rw [hs, width_append]
    exact Nat.le_add_right _ _
  rw [Span.before, Nat.min_eq_left hle, hs, splitAt?_width_append]

theorem lineColumn_append (hs : s.start = width before) (hbefore : before = lines ++ last)
    (h : IsLastLine lines last) :
    s.lineColumn (before ++ after) = (1 + before.count '\n', 1 + last.length) := by
  have hlast : before.reverse.takeWhile (· != '\n') = last.reverse := by
    rw [hbefore, takeWhile_reverse_of_isLastLine h]
  rw [lineColumn, before_append hs, hlast, List.length_reverse, Nat.add_comm, Nat.add_comm _ 1]

/-- Going on in a text moves to a later line, or to the right. -/
theorem lineColumn_lt_append (hs : s.start = width before)
    (hs' : s'.start = width (before ++ between)) (hne : between ≠ []) :
    toLex (s.lineColumn (before ++ (between ++ after))) <
      toLex (s'.lineColumn (before ++ between ++ after)) := by
  obtain ⟨lines, last, hbefore, hlast⟩ := exists_isLastLine before
  have hcount : (before ++ between).count '\n' = before.count '\n' + between.count '\n' :=
    List.count_append
  rw [lineColumn_append hs hbefore hlast, Prod.Lex.toLex_lt_toLex]
  by_cases hbreak : '\n' ∈ between
  · obtain ⟨lines', last', hbefore', hlast'⟩ := exists_isLastLine (before ++ between)
    rw [lineColumn_append hs' hbefore' hlast', hcount]
    have hpos := List.count_pos_iff.2 hbreak
    exact Or.inl (by dsimp only; omega)
  · -- Without a line break the last line only grows.
    have hbefore' : before ++ between = lines ++ (last ++ between) := by
      rw [hbefore, List.append_assoc]
    have hlast' : IsLastLine lines (last ++ between) :=
      ⟨fun hmem => (List.mem_append.1 hmem).elim hlast.not_mem hbreak, hlast.ends⟩
    rw [lineColumn_append hs' hbefore' hlast', hcount, List.count_eq_zero_of_not_mem hbreak,
      List.length_append]
    have hpos := List.length_pos_iff.2 hne
    exact Or.inr ⟨rfl, by dsimp only; omega⟩

/-- Along the boundaries of a text, line and column grow. -/
theorem lineColumn_lt (hs : IsBoundary text s.start) (hs' : IsBoundary text s'.start)
    (hlt : s.start < s'.start) : toLex (s.lineColumn text) < toLex (s'.lineColumn text) := by
  obtain ⟨before, after, htext, hstart⟩ := hs
  obtain ⟨before', after', rfl, hstart'⟩ := hs'
  rw [hstart, hstart'] at hlt
  obtain ⟨between, hne, rfl⟩ := exists_between htext.symm hlt
  have hgrows : toLex (s.lineColumn (before ++ (between ++ after'))) <
      toLex (s'.lineColumn (before ++ between ++ after')) :=
    lineColumn_lt_append hstart hstart' hne
  rwa [← List.append_assoc] at hgrows

theorem lineColumn_inj (hs : IsBoundary text s.start) (hs' : IsBoundary text s'.start) :
    s.lineColumn text = s'.lineColumn text ↔ s.start = s'.start := by
  constructor
  · intro heq
    rcases Nat.lt_trichotomy s.start s'.start with hlt | hstart | hlt
    · exact absurd (lineColumn_lt hs hs' hlt) (by rw [heq]; exact lt_irrefl _)
    · exact hstart
    · exact absurd (lineColumn_lt hs' hs hlt) (by rw [heq]; exact lt_irrefl _)
  · intro hstart
    rw [lineColumn, lineColumn, Span.before, Span.before, hstart]

end Span

end StoreQuery

import StoreQuery.Proofs.Grammar.Registration
import StoreQuery.Proofs.Grammar.Termination
import StoreQuery.Proofs.Text.Position

/-! # Where the grammar is broken

An error of the grammar is placed at a token of the text, the one that it blames, or behind the last
token if the text ends too early. Its line and column are those of this place, which lies between
two characters, and they tell it from every other such place.
-/

namespace StoreQuery

open Text

def GrammarFault.found? : GrammarFault → Option Token
  | unexpected _ found => some found
  | integerOutOfRange | negativeCount | lifetimeOutOfRange => none

theorem GrammarFault.Blames.eq_of_found? {fault : GrammarFault} {t found : Token}
    (h : fault.Blames t) (hfound : fault.found? = some found) : found = t := by
  cases fault with
  | unexpected =>
    cases hfound
    exact h
  | integerOutOfRange | negativeCount | lifetimeOutOfRange => cases hfound

theorem GrammarFault.Blames.found?_eof {fault : GrammarFault} (h : fault.Blames .eof) :
    fault.found? = some .eof := by
  cases fault with
  | unexpected => exact congrArg some h
  | integerOutOfRange | negativeCount | lifetimeOutOfRange => exact absurd rfl h

/-- Whether the span of an error is the place where the grammar is broken: the end of the last token
if the text ends too early, and the token that was found otherwise. No part of the text before it is
invalid. -/
structure GrammarError.IsPlaced (e : GrammarError) (text : String) : Prop where
  start_le_stop : e.span.start ≤ e.span.stop
  stop_le : e.span.stop ≤ width text.toList
  start_boundary : IsBoundary text.toList e.span.start
  stop_boundary : IsBoundary text.toList e.span.stop
  at_end : e.fault.found? = some .eof →
    e.span = .point (((Lexeme.scan text).getLast?.map fun l => l.span.stop).getD 0)
  at_token : e.fault.found? ≠ some .eof →
    ∃ l ∈ Lexeme.scan text, e.span = l.span ∧ ∀ t, e.fault.found? = some t → t = l.token
  start_le_invalid : ∀ l ∈ Lexeme.scan text, l.token.isInvalid = true → e.span.start ≤ l.span.start

/-- Whether a line and a column are those of the characters before a place: the line breaks among
them, and the characters behind the last one, both counted from one. -/
inductive Text.IsLineColumn (text : List Char) (place : Nat) : Nat × Nat → Prop where
  | intro {before after lines last : List Char}
      (hsplit : splitAt? place text = some (before, after)) (hbefore : before = lines ++ last)
      (hlast : IsLastLine lines last) :
      IsLineColumn text place (1 + before.count '\n', 1 + last.length)

theorem Span.isLineColumn {s : Span} {text : List Char} (h : IsBoundary text s.start) :
    IsLineColumn text s.start (s.lineColumn text) := by
  obtain ⟨before, after, rfl, hstart⟩ := h
  obtain ⟨lines, last, hbefore, hlast⟩ := exists_isLastLine before
  rw [lineColumn_append hstart hbefore hlast, hstart]
  exact .intro (splitAt?_width_append before after) hbefore hlast

namespace Lexeme

variable {text : String} {l : Lexeme}

theorem isBoundary_of_mem_scan (hl : l ∈ scan text) :
    IsBoundary text.toList l.span.start ∧ IsBoundary text.toList l.span.stop := by
  obtain ⟨before, slice, after, htext, hspan, -⟩ := (tiles_scan text).exists_slice hl
  rw [Nat.zero_add] at hspan
  rw [hspan, htext]
  refine ⟨⟨before, slice ++ after, rfl, rfl⟩, before ++ slice, after, ?_, ?_⟩
  · rw [List.append_assoc]
  · rw [width_append]

theorem isBoundary_last :
    IsBoundary text.toList (((scan text).getLast?.map fun l => l.span.stop).getD 0) := by
  cases h : (scan text).getLast? with
  | none => exact ⟨[], text.toList, rfl, rfl⟩
  | some l => exact (isBoundary_of_mem_scan (List.mem_of_getLast? h)).2

end Lexeme

namespace Grammar

section Cursor

variable {text : String} {c : Cursor} {e : GrammarError}

/-- The cursor is at the end of the text, or at one of its tokens. -/
theorem span_of_leads (h : (Cursor.start (Lexeme.scan text)).Leads c) :
    (c.token = .eof ∧
      c.span = .point (((Lexeme.scan text).getLast?.map fun l => l.span.stop).getD 0)) ∨
    ∃ l ∈ Lexeme.scan text, c.span = l.span ∧ c.token = l.token := by
  obtain ⟨passed, hscan, -, hplace, -⟩ := h.exists_passed
  replace hscan : Lexeme.scan text = passed ++ c.rest := hscan
  obtain ⟨_ | ⟨l, rest⟩, place, mentioned⟩ := c
  · rw [List.append_nil] at hscan
    rw [hscan]
    exact Or.inl ⟨rfl, congrArg Span.point hplace⟩
  · exact Or.inr ⟨l, by rw [hscan]; exact List.mem_append_right _ List.mem_cons_self, rfl, rfl⟩

theorem start_le_of_isInvalid (h : (Cursor.start (Lexeme.scan text)).Leads c) {l : Lexeme}
    (hl : l ∈ Lexeme.scan text) (hinvalid : l.token.isInvalid = true) :
    c.span.start ≤ l.span.start := by
  have htiles := Lexeme.tiles_scan text
  obtain ⟨passed, hscan, -, -, hvalid⟩ := h.exists_passed
  replace hscan : Lexeme.scan text = passed ++ c.rest := hscan
  have horder := htiles.pairwise
  rw [hscan] at hl horder
  rcases List.mem_append.1 hl with hpassed | hleft
  · rw [hvalid l hpassed] at hinvalid
    cases hinvalid
  · refine start_le_start_of_left (List.pairwise_append.1 horder).2.1 (fun m hm => ?_) l hleft
    exact htiles.start_lt_stop (by rw [hscan]; exact List.mem_append_right _ hm)

theorem isPlaced_of_isBlamed (h : (Cursor.start (Lexeme.scan text)).Leads c)
    (hblamed : c.IsBlamed e) : e.IsPlaced text := by
  obtain ⟨hspan, hblames⟩ := hblamed
  have hinvalid : ∀ l ∈ Lexeme.scan text, l.token.isInvalid = true →
      e.span.start ≤ l.span.start := by
    rw [hspan]
    exact fun l => start_le_of_isInvalid h
  rcases span_of_leads h with ⟨htoken, hend⟩ | ⟨l, hl, hend, htoken⟩
  · -- Only a fault that names the end can blame it.
    have hboundary := @Lexeme.isBoundary_last text
    rw [htoken] at hblames
    rw [hend] at hspan
    constructor
    case at_end => exact fun _ => hspan
    case at_token => exact fun hne => absurd hblames.found?_eof hne
    case start_le_invalid => exact hinvalid
    all_goals rw [hspan]
    case start_le_stop => exact Nat.le_refl _
    case stop_le => exact hboundary.le_width
    case start_boundary | stop_boundary => exact hboundary
  · -- No token of the text is its end: what the fault names, if anything, is this token.
    obtain ⟨hstart, hstop⟩ := Lexeme.isBoundary_of_mem_scan hl
    rw [htoken] at hblames
    rw [hend] at hspan
    constructor
    case at_end =>
      exact fun heof => absurd (hblames.eq_of_found? heof).symm (Lexeme.ne_eof_of_mem_scan hl)
    case at_token => exact fun _ => ⟨l, hl, hspan, fun t => hblames.eq_of_found?⟩
    case start_le_invalid => exact hinvalid
    all_goals rw [hspan]
    case start_le_stop => exact Nat.le_of_lt ((Lexeme.tiles_scan text).start_lt_stop hl)
    case stop_le => exact hstop.le_width
    case start_boundary => exact hstart
    case stop_boundary => exact hstop

end Cursor

variable {α : Type} {rule : Nat → Rule α} {text : String} {e : GrammarError}

theorem Rule.isPlaced_of_run (hnotes : ∀ depth c, Notes (rule depth) c)
    (hends : ∀ depth (c : Cursor), 4 * c.left + 2 ≤ depth → Ends (rule depth) c)
    (h : (Rule.run rule text).result = .error (.grammar e)) : e.IsPlaced text := by
  obtain ⟨c, hfailed⟩ := Rule.exists_failed_of_run hends h
  have hnotes := hnotes (nesting (Lexeme.scan text)) (.start (Lexeme.scan text))
  exact isPlaced_of_isBlamed (hnotes.leads c (by rw [hfailed, Reply.cursor?]))
    (hnotes.placed e c hfailed)

/-- An error of the grammar is placed where the grammar is broken, and its line and column are those
of this place, which is always found. Along the boundaries of a text, lines and columns grow, so
that two places have the same ones only if they are the same. -/
theorem error_position (text : String) :
    (∀ e, (parseStatement text).result = .error (.grammar e) ∨
        (parseScript text).result = .error (.grammar e) →
      e.IsPlaced text ∧
        IsLineColumn text.toList e.span.start (e.span.lineColumn text.toList)) ∧
    (∀ s s' : Span, IsBoundary text.toList s.start → IsBoundary text.toList s'.start →
      (s.start < s'.start →
        toLex (s.lineColumn text.toList) < toLex (s'.lineColumn text.toList)) ∧
      (s.lineColumn text.toList = s'.lineColumn text.toList ↔ s.start = s'.start)) := by
  refine ⟨fun e h => ?_, fun s s' hs hs' => ⟨Span.lineColumn_lt hs hs', Span.lineColumn_inj hs hs'⟩⟩
  have hplaced : e.IsPlaced text := by
    rcases h with hstatement | hscript
    · exact Rule.isPlaced_of_run notes_statement (fun _ _ => ends_statement) hstatement
    · exact Rule.isPlaced_of_run notes_script (fun _ _ => ends_script) hscript
  exact ⟨hplaced, Span.isLineColumn hplaced.start_boundary⟩

/-- A value is missing in the second line, behind a character of two bytes. -/
theorem error_position_second_line :
    ∃ e : GrammarError, e.IsPlaced "get \"é\",\n  limit" ∧
      e.fault = .unexpected .value (.keyword .limit) ∧ e.span = ⟨12, 17⟩ ∧
      e.span.lineColumn "get \"é\",\n  limit".toList = (2, 3) := by
  have hrefused : (parseStatement "get \"é\",\n  limit").grammarError? =
      some ⟨.unexpected .value (.keyword .limit), ⟨12, 17⟩⟩ := by
    decide +kernel
  have herror := (error_position _).1 _ (Or.inl (Reading.grammarError?_eq_some.1 hrefused))
  exact ⟨_, herror.1, rfl, rfl, by decide +kernel⟩

end Grammar

end StoreQuery

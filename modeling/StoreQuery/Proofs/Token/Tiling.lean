import StoreQuery.Proofs.Token.Slice

/-! # Tokens tile a text

The tokens of a text and the gaps between them are the whole text, in order. A gap is made of blanks
and comments, and the characters of a token have that token as their only one.
-/

namespace StoreQuery

open Text

/-- Whether some characters in front of others are blanks and comments only. A line comment ends at
a line break or at the end of the text; a block comment ends at the next `*/`, and only where there
is none at the end of the text. -/
inductive IsGap : List Char → List Char → Prop where
  | nil {rest : List Char} : IsGap [] rest
  | blank {c : Char} {gap rest : List Char} (hc : isBlank c = true) (h : IsGap gap rest) :
      IsGap (c :: gap) rest
  | line {body gap rest : List Char} (hbody : '\n' ∉ body)
      (hend : gap ++ rest = [] ∨ (gap ++ rest).head? = some '\n') (h : IsGap gap rest) :
      IsGap ('-' :: '-' :: (body ++ gap)) rest
  | block {body gap rest : List Char} (hbody : ¬['*', '/'] <:+: body ++ ['*'])
      (h : IsGap gap rest) : IsGap ('/' :: '*' :: (body ++ '*' :: '/' :: gap)) rest
  | openBlock {body : List Char} (hbody : ¬['*', '/'] <:+: body) : IsGap ('/' :: '*' :: body) []

namespace Trivia

theorem dropBlock_cases (cs : List Char) :
    (∃ body, cs = body ++ '*' :: '/' :: dropBlock cs ∧ ¬['*', '/'] <:+: body ++ ['*']) ∨
    (dropBlock cs = [] ∧ ¬['*', '/'] <:+: cs) := by
  fun_induction dropBlock cs with
  | case1 => exact Or.inr ⟨rfl, by simp⟩
  | case2 cs => exact Or.inl ⟨[], rfl, by decide⟩
  | case3 c cs hclose ih =>
    have hprefix : ∀ {ds : List Char}, (∀ es, ds = '/' :: es → ∃ es, cs = '/' :: es) →
        ¬['*', '/'] <+: c :: ds := by
      rintro ds hds ⟨es, hes⟩
      obtain ⟨hc, hes'⟩ := List.cons.inj hes
      obtain ⟨es', hcs⟩ := hds es hes'.symm
      exact hclose es' hc.symm hcs
    rcases ih with ⟨body, hcs, hbody⟩ | ⟨hdrop, hcs⟩
    · refine Or.inl ⟨c :: body, congrArg _ hcs, ?_⟩
      rw [List.cons_append, List.infix_cons_iff]
      rintro (h | h)
      · refine hprefix (fun es hes => ?_) h
        cases body with
        | nil => cases hes
        | cons d body =>
          cases hes
          exact ⟨_, hcs⟩
      · exact hbody h
    · refine Or.inr ⟨hdrop, ?_⟩
      rw [List.infix_cons_iff]
      rintro (h | h)
      · exact hprefix (fun es hes => ⟨es, hes⟩) h
      · exact hcs h

theorem isGap_drop (cs : List Char) : ∃ gap, cs = gap ++ drop cs ∧ IsGap gap (drop cs) := by
  fun_induction drop cs with
  | case1 => exact ⟨[], rfl, .nil⟩
  | case2 rest _ ih =>
    obtain ⟨gap, hrest, hgap⟩ := ih
    refine ⟨'-' :: '-' :: (rest.takeWhile (· != '\n') ++ gap), ?_, .line ?_ ?_ hgap⟩
    · rw [List.cons_append, List.cons_append, List.append_assoc, ← hrest,
        List.takeWhile_append_dropWhile]
    · intro h
      simpa using List.all_eq_true.1 (List.all_takeWhile (l := rest)) _ h
    · rw [← hrest]
      have hhead := List.head?_dropWhile_not (· != '\n') rest
      cases h : rest.dropWhile (· != '\n') with
      | nil => exact Or.inl rfl
      | cons c cs =>
        rw [h] at hhead
        exact Or.inr (by simpa using hhead)
  | case3 rest _ ih =>
    obtain ⟨gap, hrest, hgap⟩ := ih
    rcases dropBlock_cases rest with ⟨body, hbody, hnone⟩ | ⟨hdrop, hnone⟩
    · refine ⟨'/' :: '*' :: (body ++ '*' :: '/' :: gap), ?_, .block hnone hgap⟩
      rw [List.cons_append, List.cons_append, List.append_assoc, List.cons_append,
        List.cons_append, ← hrest, ← hbody]
    · rw [hdrop, drop_nil]
      exact ⟨'/' :: '*' :: rest, (List.append_nil _).symm, .openBlock hnone⟩
  | case4 c rest hline hblock hc ih =>
    obtain ⟨gap, hrest, hgap⟩ := ih
    exact ⟨c :: gap, congrArg _ hrest, .blank hc hgap⟩
  | case5 c rest hline hblock hc => exact ⟨[], rfl, .nil⟩

/-- What is left begins with no gap. -/
theorem of_drop_eq_cons {cs rest : List Char} {c : Char} (h : drop cs = c :: rest) :
    isBlank c = false ∧ (c = '-' → rest.head? ≠ some '-') ∧ (c = '/' → rest.head? ≠ some '*') := by
  fun_induction drop cs with
  | case1 => cases h
  | case2 _ _ ih | case3 _ _ ih | case4 _ _ _ _ _ ih => exact ih h
  | case5 c' rest' hline hblock hc =>
    cases h
    refine ⟨Bool.eq_false_iff.2 hc, ?_, ?_⟩
    · rintro rfl hd
      obtain ⟨es, rfl⟩ := List.head?_eq_some_iff.1 hd
      exact hline es rfl rfl
    · rintro rfl hd
      obtain ⟨es, rfl⟩ := List.head?_eq_some_iff.1 hd
      exact hblock es rfl rfl

/-- Nothing is dropped from what is left, nor from characters that go along with it. -/
theorem drop_of_endsLike {cs rest rest' : List Char} {c d : Char} (h : drop cs = c :: rest)
    (hcd : c.toLower = d.toLower) (hrest : Token.EndsLike rest rest') :
    drop (d :: rest') = d :: rest' := by
  obtain ⟨hblank, hline, hblock⟩ := of_drop_eq_cons h
  have hhead : ∀ m ∈ Token.marks, rest.head? ≠ some m → rest'.head? ≠ some m := by
    rintro m hm hne hm'
    obtain ⟨es, rfl⟩ := List.head?_eq_some_iff.1 hm'
    obtain ⟨ds, rfl, -⟩ := hrest.exists_mark hm
    exact hne rfl
  apply drop_eq_self
  · rw [← isBlank_toLower, ← hcd, isBlank_toLower, hblank]
  · rintro rfl
    exact hhead '-' (by decide) (hline (Token.eq_mark (by decide) hcd))
  · rintro rfl
    exact hhead '*' (by decide) (hblock (Token.eq_mark (by decide) hcd))

end Trivia

namespace Lexeme

/-- Whether lexemes stand one after the other in some characters that begin at a place. Between
them, before the first and after the last there are only gaps, and the characters of each have its
token as their only one. -/
inductive Tiles : Nat → List Char → List Lexeme → Prop where
  | nil {place : Nat} {gap : List Char} (hgap : IsGap gap []) : Tiles place gap []
  | cons {place : Nat} {gap slice rest : List Char} {t : Token} {ls : List Lexeme}
      (hgap : IsGap gap (slice ++ rest))
      (hslice : scan (String.ofList slice) = [⟨t, 0, width slice⟩])
      (hrest : Tiles (place + width gap + width slice) rest ls) :
      Tiles place (gap ++ (slice ++ rest))
        (⟨t, place + width gap, place + width gap + width slice⟩ :: ls)

theorem scan_ofList {c : Char} {cs : List Char} {t : Token}
    (hdrop : Trivia.drop (c :: cs) = c :: cs) (hread : Token.read c cs = (t, [])) :
    scan (String.ofList (c :: cs)) = [⟨t, 0, width (c :: cs)⟩] := by
  rw [scan, String.toList_ofList, scanFrom_of_drop_cons hdrop, hread, Nat.sub_self,
    scanFrom_of_drop_nil Trivia.drop_nil]
  rfl

theorem tiles_scanFrom (place : Nat) (cs : List Char) :
    Tiles place cs (scanFrom (place + width cs) cs) := by
  generalize hsize : place + width cs = size
  fun_induction scanFrom size cs generalizing place with
  | case1 cs h =>
    obtain ⟨gap, hcs, hgap⟩ := Trivia.isGap_drop cs
    rw [h] at hcs hgap
    rw [hcs, List.append_nil]
    exact .nil hgap
  | case2 cs c rest h _ p ih =>
    obtain ⟨gap, hcs, hgap⟩ := Trivia.isGap_drop cs
    obtain ⟨slice, hrest, hagain⟩ := Token.read_slice c rest
    -- By itself the slice ends where the text does, so that no escape can follow it.
    have halone : Token.read c slice = ((Token.read c rest).1, []) := by
      simpa using hagain [] .nil (fun _ h => absurd h (by simp [Token.StartsEscape]))
    have hlike : Token.EndsLike rest slice := by
      have happend := (@Token.EndsLike.nil (Token.read c rest).2).append slice
      rwa [← hrest, List.append_nil] at happend
    rw [h, hrest, ← List.cons_append] at hcs
    have hrestWidth : width (c :: rest) = width (c :: slice) + width (Token.read c rest).2 := by
      rw [← width_append, List.cons_append, ← hrest]
    have hwidth : size = place + width gap + width (c :: slice) + width (Token.read c rest).2 := by
      rw [← hsize, hcs, width_append, width_append]
      omega
    have hstart : size - width (c :: rest) = place + width gap := by omega
    have hstop : size - width (Token.read c rest).2 = place + width gap + width (c :: slice) := by
      omega
    have hslice : scan (String.ofList (c :: slice)) =
        [⟨(Token.read c rest).1, 0, width (c :: slice)⟩] :=
      scan_ofList (Trivia.drop_of_endsLike h rfl hlike) halone
    rw [h, hrest, ← List.cons_append] at hgap
    rw [hstart, hstop, hcs]
    exact .cons hgap hslice (ih _ hwidth.symm)

/-- The tokens of a text tile it. -/
theorem tiles_scan (text : String) : Tiles 0 text.toList (scan text) := by
  have h := tiles_scanFrom 0 text.toList
  rwa [Nat.zero_add] at h

namespace Tiles

variable {place : Nat} {cs : List Char} {l : Lexeme} {ls : List Lexeme}

theorem exists_slice (h : Tiles place cs ls) (hl : l ∈ ls) :
    ∃ before slice after, cs = before ++ (slice ++ after) ∧
      l.span = ⟨place + width before, place + width before + width slice⟩ ∧
      scan (String.ofList slice) = [⟨l.token, 0, width slice⟩] := by
  induction h with
  | nil => cases hl
  | @cons place gap slice rest t ls hgap hslice hrest ih =>
    rcases List.mem_cons.1 hl with rfl | hl
    · exact ⟨gap, slice, rest, rfl, rfl, hslice⟩
    · obtain ⟨before, slice', after, rfl, hspan, hslice'⟩ := ih hl
      refine ⟨gap ++ (slice ++ before), slice', after, ?_, ?_, hslice'⟩
      · simp only [List.append_assoc]
      · rw [hspan, width_append, width_append]
        simp only [Span.mk.injEq]
        omega

theorem start_lt_stop (h : Tiles place cs ls) (hl : l ∈ ls) : l.span.start < l.span.stop := by
  obtain ⟨before, slice, after, _, hspan, hslice⟩ := h.exists_slice hl
  have hpos : 0 < width slice := by
    cases slice with
    | nil =>
      rw [scan, String.toList_ofList, scanFrom_of_drop_nil Trivia.drop_nil] at hslice
      cases hslice
    | cons c slice =>
      have := c.utf8Size_pos
      rw [width_cons]
      omega
  rw [hspan]
  dsimp only
  omega

theorem le_start (h : Tiles place cs ls) (hl : l ∈ ls) : place ≤ l.span.start := by
  obtain ⟨before, slice, after, _, hspan, _⟩ := h.exists_slice hl
  rw [hspan]
  exact Nat.le_add_right _ _

theorem pairwise (h : Tiles place cs ls) :
    ls.Pairwise fun l m => l.span.stop ≤ m.span.start := by
  induction h with
  | nil => exact .nil
  | cons _ _ hrest ih => exact .cons (fun m hm => hrest.le_start hm) ih

end Tiles

theorem text_span {before slice after : List Char} :
    Span.text ⟨width before, width before + width slice⟩ (before ++ (slice ++ after)) = slice := by
  rw [Span.text, if_pos (Nat.le_add_right _ _), splitAt?_width_append]
  dsimp only
  rw [Nat.add_sub_cancel_left, splitAt?_width_append]

section Calls

/-- The next token of some characters which end a text of `size` bytes, and the characters after
it. At the end of the text it is the end, and nothing is taken. -/
def next (size : Nat) (cs : List Char) : Lexeme × List Char :=
  match Trivia.drop cs with
  | [] => (⟨.eof, .point size⟩, [])
  | c :: rest =>
    (⟨(Token.read c rest).1, size - width (c :: rest), size - width (Token.read c rest).2⟩,
      (Token.read c rest).2)

/-- What the call after `n` others gives, of one for the next token after the other. -/
def call (size : Nat) : Nat → List Char → Lexeme
  | 0, cs => (next size cs).1
  | n + 1, cs => call size n (next size cs).2

theorem next_of_drop_nil {size : Nat} {cs : List Char} (h : Trivia.drop cs = []) :
    next size cs = (⟨.eof, .point size⟩, []) := by
  rw [next, h]

theorem call_nil (size n : Nat) : call size n [] = ⟨.eof, .point size⟩ := by
  induction n with
  | zero => rw [call, next_of_drop_nil Trivia.drop_nil]
  | succ n ih => rw [call, next_of_drop_nil Trivia.drop_nil, ih]

/-- The calls give the tokens of the text, and then the end of the text for ever. -/
theorem call_eq (size n : Nat) (cs : List Char) :
    call size n cs = (scanFrom size cs)[n]?.getD ⟨.eof, .point size⟩ := by
  induction n generalizing cs with
  | zero =>
    cases h : Trivia.drop cs with
    | nil => rw [call, next_of_drop_nil h, scanFrom_of_drop_nil h]; rfl
    | cons c rest => rw [call, next, h, scanFrom_of_drop_cons h]; rfl
  | succ n ih =>
    cases h : Trivia.drop cs with
    | nil => rw [call, next_of_drop_nil h, scanFrom_of_drop_nil h, call_nil]; rfl
    | cons c rest => rw [call, next, h, scanFrom_of_drop_cons h, ih]; rfl

end Calls

theorem ne_eof_of_mem_scan {text : String} {l : Lexeme} (hl : l ∈ scan text) : l.token ≠ .eof := by
  have htoken : l.token.IsRead :=
    isRead_of_mem_tokens (map_token_scan text ▸ List.mem_map_of_mem hl)
  intro heof
  rw [heof] at htoken
  exact htoken

/-- The tokens of a text tile it. Calling for the next token gives each of them in turn and then the
end of the text, however often it is asked for. No token is the end; each takes some characters of
the text, which have this token as their only one; no two overlap; and what lies between them is
blanks and comments. -/
theorem scan_tiles (text : String) :
    (∀ n, call (width text.toList) n text.toList =
      (scan text)[n]?.getD ⟨.eof, .point (width text.toList)⟩) ∧
    (∀ l ∈ scan text, l.token ≠ .eof ∧ l.span.start < l.span.stop ∧
      (∃ before after, text.toList = before ++ (l.span.text text.toList ++ after) ∧
        l.span = ⟨width before, width before + width (l.span.text text.toList)⟩) ∧
      scan (String.ofList (l.span.text text.toList)) =
        [⟨l.token, 0, l.span.stop - l.span.start⟩]) ∧
    (scan text).Pairwise (fun l m => l.span.stop ≤ m.span.start) ∧
    Tiles 0 text.toList (scan text) := by
  have htiles := tiles_scan text
  refine ⟨fun n => call_eq _ n _, ?_, htiles.pairwise, htiles⟩
  intro l hl
  obtain ⟨before, slice, after, htext, hspan, hslice⟩ := htiles.exists_slice hl
  rw [Nat.zero_add] at hspan
  have hpart : l.span.text text.toList = slice := by rw [hspan, htext, text_span]
  refine ⟨ne_eof_of_mem_scan hl, htiles.start_lt_stop hl, ⟨before, after, ?_, ?_⟩, ?_⟩
  · rw [hpart, htext]
  · rw [hpart, hspan]
  · rw [hpart, hslice, hspan, Nat.add_sub_cancel_left]

end Lexeme

end StoreQuery

import StoreQuery.Proofs.Token.Tiling

/-! # Layout does not matter

A blank, and any blanks and comments behind it, may be put in front of any token: the tokens stay
the same, and only the places of those that come later are others. For the characters of a token are
read again behind any layout and in front of whatever ends a token in the same way, and a blank ends
every token that it does not stand in.
-/

namespace StoreQuery

open Text

/-- Whether some characters are blanks and comments that end: a line comment together with its line
break, a block comment at the next `*/`. -/
inductive IsLayout : List Char → Prop where
  | nil : IsLayout []
  | blank {c : Char} {cs : List Char} (hc : isBlank c = true) (h : IsLayout cs) : IsLayout (c :: cs)
  | line {body cs : List Char} (hbody : '\n' ∉ body) (h : IsLayout cs) :
      IsLayout ('-' :: '-' :: (body ++ '\n' :: cs))
  | block {body cs : List Char} (hbody : ¬['*', '/'] <:+: body ++ ['*']) (h : IsLayout cs) :
      IsLayout ('/' :: '*' :: (body ++ '*' :: '/' :: cs))

namespace Trivia

theorem dropBlock_append {body : List Char} (h : ¬['*', '/'] <:+: body ++ ['*'])
    (cs : List Char) : dropBlock (body ++ '*' :: '/' :: cs) = cs := by
  induction body with
  | nil => rfl
  | cons c body ih =>
    rw [List.cons_append, List.infix_cons_iff, not_or] at h
    rw [List.cons_append, dropBlock, ih h.2]
    rintro es rfl hes
    cases body with
    | nil => exact absurd (List.cons.inj hes).1 (by decide)
    | cons d body =>
      obtain rfl : d = '/' := (List.cons.inj hes).1
      exact h.1 ⟨body ++ ['*'], rfl⟩

theorem drop_append {gap : List Char} (h : IsLayout gap) (cs : List Char) :
    drop (gap ++ cs) = drop cs := by
  induction h with
  | nil => rfl
  | blank hc _ ih => rw [List.cons_append, drop_of_isBlank hc, ih]
  | @line body gap hbody _ ih =>
    have hbreak : (body ++ '\n' :: (gap ++ cs)).dropWhile (· != '\n') = '\n' :: (gap ++ cs) := by
      rw [List.dropWhile_append_of_pos]
      · rfl
      · intro c hc
        simpa using fun h : c = '\n' => hbody (h ▸ hc)
    rw [List.cons_append, List.cons_append, List.append_assoc, List.cons_append, drop]
    rw [hbreak, drop_of_isBlank (by decide), ih]
  | @block body gap hbody _ ih =>
    rw [List.cons_append, List.cons_append, List.append_assoc, List.cons_append,
      List.cons_append, drop]
    rw [dropBlock_append hbody, ih]

end Trivia

theorem IsGap.isLayout {gap rest cs : List Char} {c : Char} (h : IsGap gap rest)
    (hrest : rest = c :: cs) (hc : isBlank c = false) : IsLayout gap := by
  induction h with
  | nil => exact .nil
  | blank hb _ ih => exact .blank hb (ih hrest)
  | @line body gap rest hbody hend _ ih =>
    have hgap := ih hrest
    cases gap with
    | nil =>
      rw [hrest] at hend
      rcases hend with hend | hend
      · cases hend
      · cases hend
        exact absurd hc (by decide)
    | cons d gap =>
      obtain rfl : d = '\n' := by simpa using hend
      cases hgap with
      | blank _ hgap => exact .line hbody hgap
  | block hbody _ ih => exact .block hbody (ih hrest)
  | openBlock => cases hrest

namespace Lexeme

/-- Some characters begin with layout and then with those of a token. These are read again in front
of whatever ends a token in the same way, but for the half of a surrogate pair. -/
structure Begins (cs gap : List Char) (c : Char) (slice rest : List Char) (t : Token) : Prop where
  eq_append : cs = gap ++ (c :: (slice ++ rest))
  isLayout : IsLayout gap
  drop_eq : ∀ {d slice' rest'}, c.toLower = d.toLower →
    Token.EndsLike (slice ++ rest) (slice' ++ rest') →
    Trivia.drop (d :: (slice' ++ rest')) = d :: (slice' ++ rest')
  read_eq : ∀ {rest'}, Token.EndsLike rest rest' →
    (Token.BreaksOff (c :: slice) → Token.StartsEscape rest' → Token.StartsEscape rest) →
    Token.read c (slice ++ rest') = (t, rest')

theorem exists_begins {cs rest : List Char} {c : Char} (h : Trivia.drop cs = c :: rest) :
    ∃ gap slice, Begins cs gap c slice (Token.read c rest).2 (Token.read c rest).1 := by
  obtain ⟨gap, hcs, hgap⟩ := Trivia.isGap_drop cs
  obtain ⟨slice, hrest, hagain⟩ := Token.read_slice c rest
  have hblank := (Trivia.of_drop_eq_cons h).1
  refine ⟨gap, slice, ?_, hgap.isLayout h hblank, fun hcd hlike => ?_, fun hlike hpair => ?_⟩
  · rw [← hrest, ← h]
    exact hcs
  · rw [← hrest] at hlike
    exact Trivia.drop_of_endsLike h hcd hlike
  · exact hagain _ hlike hpair

/-- The scan of some characters depends on what is left of them behind the layout. -/
theorem scanFrom_congr {size : Nat} {cs ds : List Char} (h : Trivia.drop cs = Trivia.drop ds) :
    scanFrom size cs = scanFrom size ds := by
  cases hd : Trivia.drop ds with
  | nil => rw [scanFrom_of_drop_nil hd, scanFrom_of_drop_nil (h.trans hd)]
  | cons c rest => rw [scanFrom_of_drop_cons hd, scanFrom_of_drop_cons (h.trans hd)]

namespace Begins

variable {cs gap slice rest : List Char} {c : Char} {t : Token} {place size : Nat}

theorem scanFrom_eq (h : Begins cs gap c slice rest t) (size : Nat) {gap' rest' : List Char}
    (hgap : IsLayout gap') (hlike : Token.EndsLike rest rest')
    (hpair : Token.BreaksOff (c :: slice) → Token.StartsEscape rest' → Token.StartsEscape rest) :
    scanFrom size (gap' ++ (c :: (slice ++ rest'))) =
      ⟨t, size - width (c :: (slice ++ rest')), size - width rest'⟩ :: scanFrom size rest' := by
  have hdrop : Trivia.drop (gap' ++ (c :: (slice ++ rest'))) = c :: (slice ++ rest') :=
    (Trivia.drop_append hgap _).trans (h.drop_eq rfl (hlike.append slice))
  rw [scanFrom_of_drop_cons hdrop, h.read_eq hlike hpair]

theorem width_eq (h : Begins cs gap c slice rest t) :
    width cs = width gap + width (c :: slice) + width rest := by
  rw [h.eq_append, width_append, width_cons, width_append, width_cons]
  omega

theorem scanFrom_cons (h : Begins cs gap c slice rest t) (hsize : place + width cs = size) :
    scanFrom size cs =
        ⟨t, place + width gap, place + width gap + width (c :: slice)⟩ :: scanFrom size rest ∧
      place + width gap + width (c :: slice) + width rest = size := by
  have hwidth := h.width_eq
  have hscan := h.scanFrom_eq size h.isLayout (.refl rest) fun _ => id
  rw [← h.eq_append, width_cons, width_append] at hscan
  rw [width_cons] at hwidth ⊢
  have hstart : size - (c.utf8Size + (width slice + width rest)) = place + width gap := by omega
  have hstop : size - width rest = place + width gap + (c.utf8Size + width slice) := by omega
  rw [hstart, hstop] at hscan
  exact ⟨hscan, by omega⟩

end Begins

def shift (n : Nat) (l : Lexeme) : Lexeme :=
  ⟨l.token, l.span.start + n, l.span.stop + n⟩

/-- The lexeme that many bytes later if it does not begin before a place. -/
def shiftFrom (place n : Nat) (l : Lexeme) : Lexeme :=
  if l.span.start < place then l else l.shift n

@[simp] theorem shift_mk (n : Nat) (t : Token) (start stop : Nat) :
    shift n ⟨t, start, stop⟩ = ⟨t, start + n, stop + n⟩ := rfl

theorem shift_shift (m n : Nat) (l : Lexeme) : shift m (shift n l) = shift (m + n) l := by
  simp only [shift, Lexeme.mk.injEq, Span.mk.injEq, true_and]
  omega

theorem shiftFrom_of_lt {place n : Nat} {l : Lexeme} (h : l.span.start < place) :
    shiftFrom place n l = l :=
  if_pos h

theorem shiftFrom_of_le {place n : Nat} {l : Lexeme} (h : place ≤ l.span.start) :
    shiftFrom place n l = shift n l :=
  if_neg (Nat.not_lt.2 h)

theorem scanFrom_add {size : Nat} {cs : List Char} (n place : Nat)
    (hsize : place + width cs = size) :
    scanFrom (size + n) cs = (scanFrom size cs).map (shift n) := by
  induction cs using scanFrom.induct generalizing place with
  | case1 cs h => rw [scanFrom_of_drop_nil h, scanFrom_of_drop_nil h, List.map_nil]
  | case2 cs c rest h _ p ih =>
    obtain ⟨gap, slice, hbegins⟩ := exists_begins h
    obtain ⟨hscan, hrest⟩ := hbegins.scanFrom_cons hsize
    have hsize' : place + n + width cs = size + n := by omega
    have htail : scanFrom (size + n) (Token.read c rest).2 =
        (scanFrom size (Token.read c rest).2).map (shift n) := ih _ hrest
    rw [(hbegins.scanFrom_cons hsize').1, hscan, List.map_cons, htail, shift_mk,
      Nat.add_right_comm place n, Nat.add_right_comm (place + width gap) n]

/-- Characters that are read as one token, wherever they stand in front of others, are the first
lexeme of the text. -/
theorem scan_of_read {c : Char} {slice rest : List Char} {t : Token}
    (hdrop : Trivia.drop (c :: (slice ++ rest)) = c :: (slice ++ rest))
    (hread : Token.read c (slice ++ rest) = (t, rest)) :
    scan (String.ofList (c :: slice ++ rest)) =
      ⟨t, 0, width (c :: slice)⟩ ::
        (scan (String.ofList rest)).map (shift (width (c :: slice))) := by
  have hwidth : width (c :: (slice ++ rest)) = width rest + width (c :: slice) := by
    simp only [width_cons, width_append]
    omega
  rw [scan, scan, String.toList_ofList, String.toList_ofList, List.cons_append,
    scanFrom_of_drop_cons hdrop, hread, hwidth, scanFrom_add _ 0 (Nat.zero_add _)]
  simp

theorem scan_append_layout {gap : List Char} (h : IsLayout gap) (cs : List Char) :
    scan (String.ofList (gap ++ cs)) = (scan (String.ofList cs)).map (shift (width gap)) := by
  rw [scan, scan, String.toList_ofList, String.toList_ofList,
    scanFrom_congr (Trivia.drop_append h cs), width_append, Nat.add_comm,
    scanFrom_add _ 0 (Nat.zero_add _)]

theorem exists_eq_append {as bs cs ds : List Char} (h : as ++ bs = cs ++ ds)
    (hwidth : width as ≤ width cs) : ∃ es, cs = as ++ es ∧ bs = es ++ ds := by
  rcases List.append_eq_append_iff.1 h with hsplit | ⟨es, rfl, rfl⟩
  · exact hsplit
  · cases es with
    | nil => exact ⟨[], by simp, rfl⟩
    | cons e es =>
      have := e.utf8Size_pos
      rw [width_append, width_cons] at hwidth
      omega

theorem append_inj_of_width {as bs cs ds : List Char} (h : as ++ bs = cs ++ ds)
    (hwidth : width as = width cs) : as = cs ∧ bs = ds := by
  have hsplit := splitAt?_width_append as bs
  rw [h, hwidth, splitAt?_width_append] at hsplit
  cases hsplit
  exact ⟨rfl, rfl⟩

theorem Begins.le_start {cs gap slice rest : List Char} {c : Char} {t : Token} {place size : Nat}
    (h : Begins cs gap c slice rest t) (hsize : place + width cs = size) {l : Lexeme}
    (hl : l ∈ scanFrom size rest) :
    place + width gap + width (c :: slice) ≤ l.span.start := by
  have hrest := (h.scanFrom_cons hsize).2
  rw [← hrest] at hl
  exact (tiles_scanFrom _ rest).le_start hl

theorem start_lt_size {cs : List Char} {place size : Nat} (hsize : place + width cs = size)
    {l : Lexeme} (hl : l ∈ scanFrom size cs) : l.span.start < size := by
  rw [← hsize] at hl
  have htiles := tiles_scanFrom place cs
  obtain ⟨before, slice, after, hcs, hspan, -⟩ := htiles.exists_slice hl
  have hlt := htiles.start_lt_stop hl
  rw [hcs, width_append, width_append] at hsize
  rw [hspan] at hlt ⊢
  dsimp only at *
  omega

section Insertion

variable {b : Char} {inserted : List Char}

theorem startsEscape_of_blank (hb : isBlank b = true) {before cs : List Char}
    (h : Token.StartsEscape (before ++ b :: cs)) (ds : List Char) :
    Token.StartsEscape (before ++ ds) := by
  obtain ⟨es, hes⟩ := h
  rcases before with _ | ⟨x, _ | ⟨y, before⟩⟩
  · cases hes
    exact absurd hb (by decide)
  · cases hes
    exact absurd hb (by decide)
  · cases hes
    exact ⟨before ++ ds, rfl⟩

section

variable {cs gap slice rest before after : List Char} {c : Char} {t : Token} {place size : Nat}

theorem Begins.scanFrom_insert (h : Begins cs gap c slice rest t) (hb : isBlank b = true)
    (hins : IsLayout inserted) (hsize : place + width cs = size) :
    scanFrom (size + width (b :: inserted)) (gap ++ (b :: inserted ++ c :: (slice ++ rest))) =
      (scanFrom size cs).map (shiftFrom (place + width gap) (width (b :: inserted))) := by
  have hdrop : Trivia.drop (gap ++ (b :: inserted ++ c :: (slice ++ rest))) = Trivia.drop cs := by
    rw [h.eq_append, Trivia.drop_append h.isLayout, Trivia.drop_append (.blank hb hins),
      Trivia.drop_append h.isLayout]
  have hstart : ∀ l ∈ scanFrom size cs, place + width gap ≤ l.span.start := by
    intro l hl
    rw [(h.scanFrom_cons hsize).1] at hl
    rcases List.mem_cons.1 hl with rfl | hl
    · exact le_rfl
    · exact le_trans (Nat.le_add_right _ _) (h.le_start hsize hl)
  rw [scanFrom_congr hdrop, scanFrom_add _ place hsize]
  exact List.map_congr_left fun l hl => (shiftFrom_of_le (hstart l hl)).symm

/-- In front of a later token, the first one stays as it is: a blank ends what it could go on
with. -/
theorem Begins.scanFrom_insert_after (h : Begins cs gap c slice (before ++ after) t)
    (hb : isBlank b = true) (hafter : after ≠ []) (hsize : place + width cs = size)
    (htail : scanFrom (size + width (b :: inserted)) (before ++ (b :: inserted ++ after)) =
      (scanFrom size (before ++ after)).map
        (shiftFrom (place + width (gap ++ c :: slice ++ before)) (width (b :: inserted)))) :
    scanFrom (size + width (b :: inserted))
        (gap ++ c :: slice ++ before ++ (b :: inserted ++ after)) =
      (scanFrom size cs).map
        (shiftFrom (place + width (gap ++ c :: slice ++ before)) (width (b :: inserted))) := by
  obtain ⟨hscan, hrest⟩ := h.scanFrom_cons hsize
  have hlike : Token.EndsLike (before ++ after) (before ++ (b :: inserted ++ after)) :=
    (Token.EndsLike.blank hafter hb).append before
  have hfirst := h.scanFrom_eq (size + width (b :: inserted)) h.isLayout hlike
    fun _ hescape => startsEscape_of_blank hb hescape after
  have hplace : place + width gap < place + width (gap ++ c :: slice ++ before) := by
    have := c.utf8Size_pos
    rw [width_append, width_append, width_cons]
    omega
  have hlist : gap ++ c :: slice ++ before ++ (b :: inserted ++ after) =
      gap ++ (c :: (slice ++ (before ++ (b :: inserted ++ after)))) := by
    simp only [List.append_assoc, List.cons_append]
  rw [hlist, hfirst, htail, hscan, List.map_cons, shiftFrom_of_lt hplace]
  simp only [width_append, width_cons] at hrest ⊢
  simp only [List.cons.injEq, Lexeme.mk.injEq, Span.mk.injEq, true_and, and_true]
  omega

end

theorem scanFrom_insert (hb : isBlank b = true) (hins : IsLayout inserted) {size : Nat}
    {cs after : List Char} {l : Lexeme} (place : Nat) (before : List Char)
    (hcs : cs = before ++ after) (hsize : place + width cs = size) (hl : l ∈ scanFrom size cs)
    (hstart : l.span.start = place + width before) :
    scanFrom (size + width (b :: inserted)) (before ++ (b :: inserted ++ after)) =
      (scanFrom size cs).map (shiftFrom (place + width before) (width (b :: inserted))) := by
  induction cs using scanFrom.induct generalizing place before with
  | case1 cs h =>
    rw [scanFrom_of_drop_nil h] at hl
    cases hl
  | case2 cs c rest h _ p ih =>
    obtain ⟨gap, slice, hbegins⟩ := exists_begins h
    obtain ⟨hscan, hrest⟩ := hbegins.scanFrom_cons hsize
    have hsplit := hbegins.eq_append.symm.trans hcs
    rw [hscan] at hl
    -- The place is that of the first token, or it is behind this token and belongs to the rest.
    rcases List.mem_cons.1 hl with rfl | hl'
    · obtain ⟨rfl, rfl⟩ := append_inj_of_width hsplit (Nat.add_left_cancel hstart)
      exact hbegins.scanFrom_insert hb hins hsize
    · have hle := hbegins.le_start hsize hl'
      have hwidth : width (gap ++ c :: slice) ≤ width before := by
        rw [width_append]
        omega
      rw [← List.cons_append, ← List.append_assoc] at hsplit
      obtain ⟨before, rfl, hafter⟩ := exists_eq_append hsplit hwidth
      have hplace : place + width (gap ++ c :: slice ++ before) =
          place + width gap + width (c :: slice) + width before := by
        rw [width_append, width_append]
        omega
      have htail : scanFrom (size + width (b :: inserted)) (before ++ (b :: inserted ++ after)) =
          (scanFrom size (Token.read c rest).2).map (shiftFrom
            (place + width gap + width (c :: slice) + width before) (width (b :: inserted))) :=
        ih _ before hafter hrest hl' (hstart.trans hplace)
      have hne : after ≠ [] := by
        rintro rfl
        have hlt := start_lt_size hrest hl'
        rw [hafter, List.append_nil] at hrest
        omega
      rw [hafter] at hbegins
      rw [hafter, ← hplace] at htail
      exact hbegins.scanFrom_insert_after hb hne hsize htail

/-- A blank and other layout are inserted in a text where one of its tokens begins. -/
theorem scan_insert (hb : isBlank b = true) (hins : IsLayout inserted) {before after : List Char}
    {l : Lexeme} (hl : l ∈ scan (String.ofList (before ++ after)))
    (hstart : l.span.start = width before) :
    scan (String.ofList (before ++ (b :: inserted ++ after))) =
      (scan (String.ofList (before ++ after))).map
        (shiftFrom (width before) (width (b :: inserted))) := by
  simp only [scan, String.toList_ofList] at hl ⊢
  have hwidth : width (before ++ (b :: inserted ++ after)) =
      width (before ++ after) + width (b :: inserted) := by
    simp only [width_append]
    omega
  have hscan := scanFrom_insert hb hins 0 before rfl (Nat.zero_add _) hl
    (hstart.trans (Nat.zero_add _).symm)
  rw [Nat.zero_add] at hscan
  rw [hwidth]
  exact hscan

theorem ending_insert (before after : List Char) :
    ending (String.ofList (before ++ (b :: inserted ++ after))) =
      (ending (String.ofList (before ++ after))).shift (width (b :: inserted)) := by
  have hwidth : width (before ++ (b :: inserted ++ after)) =
      width (before ++ after) + width (b :: inserted) := by
    simp only [width_append]
    omega
  rw [ending, ending, String.toList_ofList, String.toList_ofList, hwidth]
  rfl

end Insertion

end Lexeme

end StoreQuery

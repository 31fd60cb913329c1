import StoreQuery.Proofs.Token.Layout

/-! # Keywords in another case

The letters of keywords may be written in either case: the lexemes of the text stay the same. No
reader in front of a keyword tells the cases of its first letters apart, with one exception. Behind
a literal that breaks off after the first half of a surrogate pair, `\u` begins the other half and
`\U` does not.
-/

namespace StoreQuery

open Text

theorem Text.utf8Size_toLower (c : Char) : c.toLower.utf8Size = c.utf8Size := by
  rcases toLower_eq_or c with h | ⟨n, hn, rfl⟩
  · rw [h]
  · have hall : ∀ n < 26,
        (Char.ofNat (65 + n)).toLower.utf8Size = (Char.ofNat (65 + n)).utf8Size := by decide
    exact hall n hn

/-- Whether some characters become others by changes of case at certain places, the first character
being at the given place. -/
inductive Recased (changes : Nat → Prop) : Nat → List Char → List Char → Prop where
  | nil {place : Nat} : Recased changes place [] []
  | same {place : Nat} {c : Char} {cs ds : List Char}
      (h : Recased changes (place + c.utf8Size) cs ds) : Recased changes place (c :: cs) (c :: ds)
  | letter {place : Nat} {c d : Char} {cs ds : List Char} (hplace : changes place)
      (hcd : c.toLower = d.toLower) (h : Recased changes (place + c.utf8Size) cs ds) :
      Recased changes place (c :: cs) (d :: ds)

namespace Recased

variable {changes : Nat → Prop} {place : Nat} {cs ds xs ys : List Char}

theorem cons_iff {c d : Char} : Recased changes place (c :: cs) (d :: ds) ↔
    (c = d ∨ changes place ∧ c.toLower = d.toLower) ∧
      Recased changes (place + c.utf8Size) cs ds := by
  constructor
  · intro h
    cases h with
    | same h => exact ⟨Or.inl rfl, h⟩
    | letter hplace hcd h => exact ⟨Or.inr ⟨hplace, hcd⟩, h⟩
  · rintro ⟨rfl | ⟨hplace, hcd⟩, h⟩
    · exact .same h
    · exact .letter hplace hcd h

instance decidable [DecidablePred changes] :
    ∀ place cs ds, Decidable (Recased changes place cs ds)
  | _, [], [] => isTrue .nil
  | _, [], _ :: _ => isFalse nofun
  | _, _ :: _, [] => isFalse nofun
  | place, c :: cs, d :: ds =>
    have := decidable (place + c.utf8Size) cs ds
    decidable_of_iff ((c = d ∨ changes place ∧ c.toLower = d.toLower) ∧
      Recased changes (place + c.utf8Size) cs ds) cons_iff.symm

theorem map_toLower (h : Recased changes place cs ds) :
    cs.map Char.toLower = ds.map Char.toLower := by
  induction h with
  | nil => rfl
  | same _ ih => rw [List.map_cons, List.map_cons, ih]
  | letter _ hcd _ ih => rw [List.map_cons, List.map_cons, hcd, ih]

theorem endsLike (h : Recased changes place cs ds) : Token.EndsLike cs ds :=
  .of_map_toLower h.map_toLower

theorem width_eq (h : Recased changes place cs ds) : width ds = width cs := by
  induction h with
  | nil => rfl
  | same _ ih => rw [width_cons, width_cons, ih]
  | @letter _ c d _ _ _ hcd _ ih =>
    have hsize : d.utf8Size = c.utf8Size := by
      rw [← utf8Size_toLower, ← hcd, utf8Size_toLower]
    rw [width_cons, width_cons, ih, hsize]

theorem exists_append (h : Recased changes place (xs ++ ys) ds) :
    ∃ xs' ys', ds = xs' ++ ys' ∧ Recased changes place xs xs' ∧
      Recased changes (place + width xs) ys ys' := by
  induction xs generalizing place ds with
  | nil => exact ⟨[], ds, rfl, .nil, h⟩
  | cons c xs ih =>
    cases h with
    | same h =>
      obtain ⟨xs', ys', rfl, hxs, hys⟩ := ih h
      rw [Nat.add_assoc, ← width_cons] at hys
      exact ⟨c :: xs', ys', rfl, .same hxs, hys⟩
    | @letter _ _ d _ _ hplace hcd h =>
      obtain ⟨xs', ys', rfl, hxs, hys⟩ := ih h
      rw [Nat.add_assoc, ← width_cons] at hys
      exact ⟨d :: xs', ys', rfl, .letter hplace hcd hxs, hys⟩

theorem eq_of_forall_not (h : Recased changes place cs ds)
    (hnot : ∀ p, place ≤ p → p < place + width cs → ¬changes p) : ds = cs := by
  induction h with
  | nil => rfl
  | @same place c cs ds _ ih =>
    rw [ih fun p hp hp' => hnot p (by omega) (by rw [width_cons]; omega)]
  | @letter place c d cs ds hplace =>
    have := c.utf8Size_pos
    exact absurd hplace (hnot place le_rfl (by rw [width_cons]; omega))

end Recased

namespace Name

theorem isDotted_map_toLower (b : Bool) (cs : List Char) :
    isDotted b (cs.map Char.toLower) = isDotted b cs := by
  induction cs generalizing b with
  | nil => rfl
  | cons c cs ih =>
    have hpoint : (c.toLower = '.') ↔ c = '.' :=
      ⟨fun h => Token.eq_mark (by decide) (h.trans rfl), fun h => by rw [h]; rfl⟩
    cases b with
    | true => rw [List.map_cons, isDotted, isDotted, ih, Token.IsTest.isStart.toLower]
    | false => simp only [List.map_cons, isDotted, hpoint, ih, Token.IsTest.isPart.toLower]

end Name

theorem Keyword.ofWord?_congr {cs ds : List Char}
    (h : cs.map Char.toLower = ds.map Char.toLower) :
    ofWord? (String.ofList cs) = ofWord? (String.ofList ds) := by
  rw [ofWord?, ofWord?, String.toList_ofList, String.toList_ofList, h]

namespace Token

variable {c d : Char} {k : Keyword} {cs ds rest rest' : List Char}

theorem ofWord_eq_keyword_iff : ofWord cs = keyword k ↔
    Keyword.ofWord? (String.ofList cs) = some k := by
  unfold ofWord
  split
  · next k' h => rw [h, Option.some.injEq, keyword.injEq]
  · next h => simp [h]

theorem isStart_of_read_keyword (h : (read c cs).1 = keyword k) : Name.isStart c = true := by
  have hreads := reads c cs
  generalize (read c cs).1 = t, (read c cs).2 = rest at h hreads
  cases hreads with
  | word hc => exact hc
  | number | negative =>
    have hnumeral := h ▸ isNumeral_readNumber _ _
    cases hnumeral
  | symbol =>
    have hsymbol := h ▸ isSymbol_readSymbol c cs
    cases hsymbol
  | _ => cases h

/-- A keyword is read in another case. -/
theorem read_recased (h : read c (cs ++ rest) = (keyword k, rest))
    (hcs : (c :: cs).map Char.toLower = (d :: ds).map Char.toLower) (hrest : EndsLike rest rest') :
    read d (ds ++ rest') = (keyword k, rest') := by
  have hstart : Name.isStart c = true := isStart_of_read_keyword (by rw [h])
  have hstart' : Name.isStart d = true := by
    rw [← IsTest.isStart.toLower, ← (List.cons.inj hcs).1, IsTest.isStart.toLower, hstart]
  rw [read_of_isStart hstart, Prod.mk.injEq] at h
  have hname : (readName (c :: (cs ++ rest))).1 = c :: cs := by
    have happend := readName_eq_append (c :: (cs ++ rest))
    rw [h.2] at happend
    exact List.append_cancel_right happend
  have hdotted : Name.isDotted false (d :: ds) = true := by
    rw [← Name.isDotted_map_toLower, ← hcs, Name.isDotted_map_toLower, ← hname]
    exact (isDotted_readName _).1
  have hend : readName rest = ([], rest) := by
    have hrest := readName_rest (c :: (cs ++ rest))
    rwa [h.2] at hrest
  have hword : ofWord (d :: ds) = keyword k := by
    rw [ofWord_eq_keyword_iff, ← Keyword.ofWord?_congr hcs, ← ofWord_eq_keyword_iff, ← hname, h.1]
  rw [read_of_isStart hstart', ← List.cons_append,
    readName_append hdotted (hrest.readName hend), hword]

end Token

namespace Lexeme

/-- Whether a place is within a keyword among some lexemes. -/
def InKeyword (ls : List Lexeme) (place : Nat) : Prop :=
  ∃ l ∈ ls, (∃ k, l.token = .keyword k) ∧ l.span.start ≤ place ∧ place < l.span.stop

instance (ls : List Lexeme) : DecidablePred (InKeyword ls) := fun place =>
  have : ∀ t : Token, Decidable (∃ k, t = .keyword k) := fun t =>
    decidable_of_iff (∃ k ∈ Keyword.all, t = .keyword k)
      ⟨fun ⟨k, _, hk⟩ => ⟨k, hk⟩, fun ⟨k, hk⟩ => ⟨k, Keyword.mem_all k, hk⟩⟩
  inferInstanceAs (Decidable (∃ l ∈ ls,
    (∃ k, l.token = .keyword k) ∧ l.span.start ≤ place ∧ place < l.span.stop))

section

variable {changes : Nat → Prop} {cs ds gap slice rest : List Char} {c : Char} {t : Token}
  {place size : Nat}

theorem Begins.exists_recased (h : Begins cs gap c slice rest t) (hsize : place + width cs = size)
    (hchanges : ∀ p, place ≤ p → changes p → InKeyword (scanFrom size cs) p)
    (hrec : Recased changes place cs ds) :
    ∃ d slice' rest', ds = gap ++ (d :: (slice' ++ rest')) ∧
      Recased changes (place + width gap) (c :: slice) (d :: slice') ∧
      Recased changes (place + width gap + width (c :: slice)) rest rest' ∧
      ((∀ k, t ≠ .keyword k) → d :: slice' = c :: slice) ∧
      ∀ p, place + width gap + width (c :: slice) ≤ p → changes p →
        InKeyword (scanFrom size rest) p := by
  -- A change is within the first lexeme, which then is a keyword, or within a later one.
  have hwithin : ∀ p, place ≤ p → changes p →
      (∃ k, t = .keyword k) ∧ place + width gap ≤ p ∧
          p < place + width gap + width (c :: slice) ∨
        InKeyword (scanFrom size rest) p ∧ place + width gap + width (c :: slice) ≤ p := by
    intro p hp hc
    obtain ⟨l, hl, hk, hstart, hstop⟩ := hchanges p hp hc
    rw [(h.scanFrom_cons hsize).1] at hl
    rcases List.mem_cons.1 hl with rfl | hl
    · exact Or.inl ⟨hk, hstart, hstop⟩
    · exact Or.inr ⟨⟨l, hl, hk, hstart, hstop⟩, le_trans (h.le_start hsize hl) hstart⟩
  rw [h.eq_append] at hrec
  obtain ⟨gap', ds', rfl, hgap, hrec⟩ := hrec.exists_append
  obtain ⟨slice', rest', rfl, hslice, hrest⟩ := @Recased.exists_append _ _ _ (c :: slice) _ hrec
  obtain ⟨d, slice', rfl⟩ : ∃ d cs, slice' = d :: cs := by
    cases hslice <;> exact ⟨_, _, rfl⟩
  have hgap' : gap' = gap := by
    apply hgap.eq_of_forall_not
    intro p hp hlt hc
    rcases hwithin p hp hc with ⟨-, hle, -⟩ | ⟨-, hle⟩ <;> omega
  refine ⟨d, slice', rest', by rw [hgap']; rfl, hslice, hrest, fun hne => ?_, fun p hp hc => ?_⟩
  · apply hslice.eq_of_forall_not
    intro p hp hlt hc
    rcases hwithin p (by omega) hc with ⟨⟨k, hk⟩, -⟩ | ⟨-, hle⟩
    · exact hne k hk
    · omega
  · rcases hwithin p (by omega) hc with ⟨-, -, hlt⟩ | ⟨hin, -⟩
    · omega
    · exact hin

/-- The first lexeme is read again from recased characters. -/
theorem Begins.scanFrom_recased (h : Begins cs gap c slice rest t) (hsize : place + width cs = size)
    {d : Char} {slice' rest' : List Char} {p q : Nat}
    (hslice : Recased changes p (c :: slice) (d :: slice')) (hrest : Recased changes q rest rest')
    (hsame : (∀ k, t ≠ .keyword k) → d :: slice' = c :: slice)
    (hpair : Token.BreaksOff (c :: slice) → Token.StartsEscape rest' → Token.StartsEscape rest) :
    scanFrom size (gap ++ (d :: (slice' ++ rest'))) =
      ⟨t, place + width gap, place + width gap + width (c :: slice)⟩ :: scanFrom size rest' := by
  obtain ⟨hcd, hmap⟩ := List.cons.inj hslice.map_toLower
  have hlike : Token.EndsLike (slice ++ rest) (slice' ++ rest') := by
    apply Token.EndsLike.of_map_toLower
    rw [List.map_append, List.map_append, hmap, hrest.map_toLower]
  have hdrop : Trivia.drop (gap ++ (d :: (slice' ++ rest'))) = d :: (slice' ++ rest') :=
    (Trivia.drop_append h.isLayout _).trans (h.drop_eq hcd hlike)
  have hread : Token.read d (slice' ++ rest') = (t, rest') := by
    by_cases hk : ∃ k, t = .keyword k
    · obtain ⟨k, rfl⟩ := hk
      exact Token.read_recased (h.read_eq (.refl rest) fun _ => id) hslice.map_toLower
        hrest.endsLike
    · obtain ⟨rfl, rfl⟩ := List.cons.inj (hsame fun k hk' => hk ⟨k, hk'⟩)
      exact h.read_eq hrest.endsLike hpair
  have hwidth := hslice.width_eq
  have hplace := (h.scanFrom_cons hsize).2
  rw [scanFrom_of_drop_cons hdrop, hread]
  simp only [width_cons, width_append, hrest.width_eq] at hwidth hplace ⊢
  simp only [List.cons.injEq, Lexeme.mk.injEq, Span.mk.injEq, true_and, and_true]
  omega

end

/-- Whether no literal of a text that breaks off after the first half of a surrogate pair is
followed by an escape in another text. -/
def KeepsHalves (text text' : String) : Prop :=
  ∀ l ∈ scan text, Token.BreaksOff (l.span.text text.toList) →
    Span.text ⟨l.span.stop, l.span.stop + 2⟩ text'.toList ≠ ['\\', 'u']

theorem scanFrom_recased {changes : Nat → Prop} {size : Nat} {cs : List Char} (place : Nat)
    (before before' ds : List Char) (hbefore : width before = place)
    (hbefore' : width before' = place) (hsize : place + width cs = size)
    (hchanges : ∀ p, place ≤ p → changes p → InKeyword (scanFrom size cs) p)
    (hrec : Recased changes place cs ds)
    (hhalves : ∀ l ∈ scanFrom size cs, Token.BreaksOff (l.span.text (before ++ cs)) →
      Span.text ⟨l.span.stop, l.span.stop + 2⟩ (before' ++ ds) ≠ ['\\', 'u']) :
    scanFrom size ds = scanFrom size cs := by
  induction cs using scanFrom.induct generalizing place before before' ds with
  | case1 cs h =>
    have hsame : ds = cs := by
      apply hrec.eq_of_forall_not
      intro p hp _ hc
      obtain ⟨l, hl, -⟩ := hchanges p hp hc
      rw [scanFrom_of_drop_nil h] at hl
      cases hl
    rw [hsame]
  | case2 cs c rest h _ p ih =>
    obtain ⟨gap, slice, hbegins⟩ := exists_begins h
    obtain ⟨hscan, hplace⟩ := hbegins.scanFrom_cons hsize
    obtain ⟨d, slice', rest', rfl, hslice, hrest, hsame, hchanges'⟩ :=
      hbegins.exists_recased hsize hchanges hrec
    have hcs : before ++ cs = before ++ gap ++ (c :: slice ++ (Token.read c rest).2) := by
      rw [hbegins.eq_append, List.append_assoc]
      rfl
    have hds : before' ++ (gap ++ (d :: (slice' ++ rest'))) =
        before' ++ gap ++ d :: slice' ++ rest' := by
      simp only [List.append_assoc, List.cons_append]
    have hwidth : width (before' ++ gap ++ d :: slice') =
        place + width gap + width (c :: slice) := by
      rw [width_append, width_append, hbefore', hslice.width_eq]
    have hpair : Token.BreaksOff (c :: slice) → Token.StartsEscape rest' →
        Token.StartsEscape (Token.read c rest).2 := by
      rintro hbreaks ⟨es, rfl⟩
      refine absurd ?_ (hhalves _ (by rw [hscan]; exact List.mem_cons_self) ?_)
      · rw [hds, ← hwidth]
        exact @text_span (before' ++ gap ++ d :: slice') ['\\', 'u'] es
      · rw [hcs, ← hbefore, ← width_append, text_span]
        exact hbreaks
    have htail : scanFrom size rest' = scanFrom size (Token.read c rest).2 := by
      apply ih _ (before ++ gap ++ c :: slice) (before' ++ gap ++ d :: slice') rest' ?_ hwidth
        hplace hchanges' hrest
      · intro l hl
        rw [← hds, List.append_assoc, ← hcs]
        exact hhalves l (by rw [hscan]; exact List.mem_cons_of_mem _ hl)
      · rw [width_append, width_append, hbefore]
    rw [hbegins.scanFrom_recased hsize hslice hrest hsame hpair, htail, hscan]

/-- Letters within the keywords of a text are written in another case. -/
theorem scan_recased {text text' : String}
    (hrec : Recased (InKeyword (scan text)) 0 text.toList text'.toList)
    (hhalves : KeepsHalves text text') : scan text' = scan text := by
  rw [scan, scan, hrec.width_eq]
  exact scanFrom_recased 0 [] [] _ rfl rfl (Nat.zero_add _) (fun _ _ => id) hrec hhalves

theorem ending_recased {text text' : String}
    (hrec : Recased (InKeyword (scan text)) 0 text.toList text'.toList) :
    ending text' = ending text := by
  rw [ending, ending, hrec.width_eq]

end Lexeme

end StoreQuery

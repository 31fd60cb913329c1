import StoreQuery.Proofs.Token.Tiling

/-! # Turns of reading

Tokens are read in loops: over blanks and comments, over the characters of a name, a text or a
number. A turn of a loop passes some characters and another turn follows, or it is the last one.
Nothing is read twice, so a loop has fewer turns than characters, and a call for the next token
passes some characters as long as there are any.
-/

namespace StoreQuery

open Text

theorem Text.width_lt_of_suffix {rest cs : List Char} (h : rest <:+ cs)
    (hlt : rest.length < cs.length) : width rest < width cs := by
  obtain ⟨passed, rfl⟩ := h
  cases passed with
  | nil => exact absurd hlt (Nat.lt_irrefl _)
  | cons c passed =>
    have := c.utf8Size_pos
    rw [List.cons_append, width_cons, width_append]
    omega

namespace Token

inductive Loop where
  /-- Characters of a kind, as blanks or digits. -/
  | span (p : Char → Bool)
  /-- Blanks and comments. -/
  | trivia
  /-- A block comment after its opening. -/
  | block
  /-- The segments of a plain name. -/
  | name
  /-- A name between backticks after its opening. -/
  | quotedName
  /-- A text after its opening quote. -/
  | text (quote : Char)
  /-- A number of hexadecimal digits and the value of those before. -/
  | hex (count before : Nat)

/-- How a turn of a loop ends: as the last one, or with another turn to follow. -/
inductive Turn where
  | stop (rest : List Char)
  | again (next : Loop) (rest : List Char)

namespace Loop

def left : Loop → List Char → List Char
  | span p, cs => cs.dropWhile p
  | trivia, cs => Trivia.drop cs
  | block, cs => Trivia.dropBlock cs
  | name, cs => (readName cs).2
  | quotedName, cs => ((readQuotedName cs).map Prod.snd).getD []
  | text quote, cs => (readText quote cs).2
  | hex count before, cs => (readHex count before cs).2

def turn (l : Loop) (cs : List Char) : Turn :=
  match l with
  | span p =>
    match cs with
    | [] => .stop []
    | c :: rest => if p c then .again (span p) rest else .stop (c :: rest)
  | trivia =>
    match cs.dropWhile isBlank with
    | '-' :: '-' :: rest => .again trivia (rest.dropWhile (· != '\n'))
    | '/' :: '*' :: rest => .again trivia (Trivia.dropBlock rest)
    | rest => .stop rest
  | block =>
    match cs with
    | [] => .stop []
    | '*' :: '/' :: rest => .stop rest
    | _ :: rest => .again block rest
  | name =>
    match cs.dropWhile Name.isPart with
    | '.' :: rest => if startsName rest then .again name rest else .stop ('.' :: rest)
    | rest => .stop rest
  | quotedName =>
    match cs with
    | [] => .stop []
    | '\x60' :: '\x60' :: rest => .again quotedName rest
    | '\x60' :: rest => .stop rest
    | _ :: rest => .again quotedName rest
  | text quote =>
    match cs with
    | [] => .stop []
    | c :: rest =>
      if c = quote then .stop rest
      else if c = '\\' then
        match readEscape rest with
        | (some _, rest) => .again (text quote) rest
        | (none, rest) => .stop rest
      else .again (text quote) rest
  | hex count before =>
    match count, cs with
    | 0, cs => .stop cs
    | _ + 1, [] => .stop []
    | count + 1, c :: rest =>
      match hexValue? c with
      | some d => .again (hex count (before * 16 + d)) rest
      | none => .stop rest

/-- Whether a loop over some characters begins with a turn. The loop leaves what its last turn
leaves, and a turn that is not the last one passes at least a byte. -/
def Begins (l : Loop) (cs : List Char) : Turn → Prop
  | .stop rest => l.left cs = rest ∧ rest <:+ cs
  | .again next rest => l.left cs = next.left rest ∧ rest <:+ cs ∧ width rest < width cs

section

variable {l next : Loop} {c : Char} {cs ds rest : List Char}

theorem Begins.again_of_suffix (hleft : l.left cs = next.left rest) (hds : c :: ds <:+ cs)
    (hrest : rest <:+ ds) : l.Begins cs (.again next rest) := by
  have hsuffix := hrest.trans ((List.suffix_cons c ds).trans hds)
  refine ⟨hleft, hsuffix, width_lt_of_suffix hsuffix ?_⟩
  exact Nat.lt_of_le_of_lt hrest.length_le hds.length_le

theorem begins_span (p : Char → Bool) (cs : List Char) :
    (span p).Begins cs ((span p).turn cs) := by
  cases cs with
  | nil => exact ⟨rfl, List.suffix_refl _⟩
  | cons c rest =>
    rw [turn]
    split
    · next hc =>
      exact .again_of_suffix (List.dropWhile_cons_of_pos hc) (List.suffix_refl _)
        (List.suffix_refl _)
    · next hc => exact ⟨List.dropWhile_cons_of_neg hc, List.suffix_refl _⟩

theorem dropBlock_suffix (cs : List Char) : Trivia.dropBlock cs <:+ cs := by
  fun_induction Trivia.dropBlock cs with
  | case1 => exact List.suffix_refl _
  | case2 cs => exact List.suffix_append ['*', '/'] cs
  | case3 c cs _ ih => exact ih.trans (List.suffix_cons c cs)

theorem begins_block (cs : List Char) : block.Begins cs (block.turn cs) := by
  unfold turn
  dsimp only
  split
  · exact ⟨rfl, List.suffix_refl _⟩
  · next rest => exact ⟨rfl, List.suffix_append ['*', '/'] rest⟩
  · next c rest hne =>
    refine .again_of_suffix ?_ (List.suffix_refl _) (List.suffix_refl _)
    exact Trivia.dropBlock.eq_3 c rest hne

theorem drop_dropWhile (cs : List Char) : Trivia.drop (cs.dropWhile isBlank) = Trivia.drop cs := by
  induction cs with
  | nil => rfl
  | cons c cs ih =>
    cases hc : isBlank c with
    | true => rw [List.dropWhile_cons_of_pos hc, Trivia.drop_of_isBlank hc, ih]
    | false => rw [List.dropWhile_cons_of_neg (by rw [hc]; exact Bool.false_ne_true)]

theorem begins_trivia (cs : List Char) : trivia.Begins cs (trivia.turn cs) := by
  have hsuffix := List.dropWhile_suffix isBlank (l := cs)
  have hdrop := drop_dropWhile cs
  have hhead := List.head?_dropWhile_not isBlank cs
  rw [turn]
  generalize cs.dropWhile isBlank = ds at hsuffix hdrop hhead
  split
  · next rest =>
    refine .again_of_suffix ?_ hsuffix ?_
    · rw [left, ← hdrop, Trivia.drop]
      rfl
    · exact (List.dropWhile_suffix _).trans (List.suffix_cons _ _)
  · next rest =>
    refine .again_of_suffix ?_ hsuffix ?_
    · rw [left, ← hdrop, Trivia.drop]
      rfl
    · exact (dropBlock_suffix rest).trans (List.suffix_cons _ _)
  · next hline hblock =>
    refine ⟨?_, hsuffix⟩
    rw [left, ← hdrop]
    cases ds with
    | nil => exact Trivia.drop_nil
    | cons c rest =>
      refine Trivia.drop_eq_self (by simpa using hhead) ?_ ?_
      · rintro rfl hc
        obtain ⟨es, rfl⟩ := List.head?_eq_some_iff.1 hc
        exact hline es rfl
      · rintro rfl hc
        obtain ⟨es, rfl⟩ := List.head?_eq_some_iff.1 hc
        exact hblock es rfl

theorem readName_dropWhile (cs : List Char) :
    (readName (cs.dropWhile Name.isPart)).2 = (readName cs).2 := by
  induction cs with
  | nil => rfl
  | cons c cs ih =>
    cases hc : Name.isPart c with
    | true => rw [List.dropWhile_cons_of_pos hc, ih, readName, if_pos (by rw [hc]; rfl)]
    | false => rw [List.dropWhile_cons_of_neg (by rw [hc]; exact Bool.false_ne_true)]

theorem begins_name (cs : List Char) : name.Begins cs (name.turn cs) := by
  have hsuffix := List.dropWhile_suffix Name.isPart (l := cs)
  have hread := readName_dropWhile cs
  have hhead := List.head?_dropWhile_not Name.isPart cs
  unfold turn
  dsimp only
  generalize cs.dropWhile Name.isPart = ds at hsuffix hread hhead
  split
  · next rest =>
    split
    · next hstart =>
      refine .again_of_suffix ?_ hsuffix (List.suffix_refl _)
      rw [left, ← hread, readName, if_pos (by simp [hstart])]
      rfl
    · next hstart =>
      refine ⟨?_, hsuffix⟩
      rw [left, ← hread, readName_cons_eq_iff.2 ⟨hhead, fun _ => Bool.eq_false_iff.2 hstart⟩]
  · next hpoint =>
    refine ⟨?_, hsuffix⟩
    rw [left, ← hread]
    cases ds with
    | nil => rfl
    | cons c rest =>
      have hc : c ≠ '.' := by
        rintro rfl
        exact hpoint rest rfl
      rw [readName_cons_eq_iff.2 ⟨hhead, fun h => absurd h hc⟩]

theorem begins_quotedName (cs : List Char) : quotedName.Begins cs (quotedName.turn cs) := by
  unfold turn
  dsimp only
  split
  · exact ⟨rfl, List.suffix_refl _⟩
  · next rest =>
    refine .again_of_suffix ?_ (List.suffix_refl _) (List.suffix_cons _ _)
    rw [left, left, readQuotedName, Option.map_map]
    rfl
  · next rest hne =>
    refine ⟨?_, List.suffix_cons _ _⟩
    rw [left, readQuotedName]
    · rfl
    · exact hne
  · next c rest hne hne' =>
    refine .again_of_suffix ?_ (List.suffix_refl _) (List.suffix_refl _)
    rw [left, left, readQuotedName, Option.map_map]
    · rfl
    · exact hne
    · exact hne'

theorem readEscape_suffix (cs : List Char) : (readEscape cs).2 <:+ cs := by
  obtain ⟨slice, hcs, -⟩ := readsAhead_readEscape cs
  exact ⟨slice, hcs.symm⟩

theorem begins_text (quote : Char) (cs : List Char) :
    (text quote).Begins cs ((text quote).turn cs) := by
  unfold turn
  dsimp only
  split
  · exact ⟨by rw [left, readText], List.suffix_refl _⟩
  · next c rest =>
    split
    · next hquote =>
      subst hquote
      exact ⟨by rw [left, readText_close], List.suffix_cons _ _⟩
    · next hquote =>
      split
      · next hescape =>
        subst hescape
        have hsuffix := readEscape_suffix rest
        split
        · next hread =>
          rw [hread] at hsuffix
          exact .again_of_suffix (by rw [left, readText_escape hquote hread]; rfl)
            (List.suffix_refl _) hsuffix
        · next hread =>
          rw [hread] at hsuffix
          exact ⟨by rw [left, readText_badEscape hquote hread],
            hsuffix.trans (List.suffix_cons _ _)⟩
      · next hescape =>
        exact .again_of_suffix (by rw [left, readText_plain hquote hescape]; rfl)
          (List.suffix_refl _) (List.suffix_refl _)

theorem begins_hex (count before : Nat) (cs : List Char) :
    (hex count before).Begins cs ((hex count before).turn cs) := by
  unfold turn
  dsimp only
  split
  · exact ⟨rfl, List.suffix_refl _⟩
  · exact ⟨rfl, List.suffix_refl _⟩
  · next count c rest =>
    split
    · next d hd =>
      refine .again_of_suffix ?_ (List.suffix_refl _) (List.suffix_refl _)
      rw [left, left, readHex_of_some hd]
    · next hd =>
      refine ⟨?_, List.suffix_cons _ _⟩
      rw [left, readHex_of_none hd]

/-- Every loop begins with its turn. -/
theorem begins_turn (l : Loop) (cs : List Char) : l.Begins cs (l.turn cs) := by
  cases l with
  | span p => exact begins_span p cs
  | trivia => exact begins_trivia cs
  | block => exact begins_block cs
  | name => exact begins_name cs
  | quotedName => exact begins_quotedName cs
  | text quote => exact begins_text quote cs
  | hex count before => exact begins_hex count before cs

end

end Loop

end Token

/-- A call for the next token passes at least a byte of what is there. -/
theorem Lexeme.next_suffix (size : Nat) {cs : List Char} (hcs : cs ≠ []) :
    (next size cs).2 <:+ cs ∧ width (next size cs).2 < width cs := by
  suffices h : (next size cs).2 <:+ cs ∧ (next size cs).2.length < cs.length from
    ⟨h.1, width_lt_of_suffix h.1 h.2⟩
  obtain ⟨gap, hgap, -⟩ := Trivia.isGap_drop cs
  have hdrop : Trivia.drop cs <:+ cs := ⟨gap, hgap.symm⟩
  cases h : Trivia.drop cs with
  | nil =>
    rw [next_of_drop_nil h]
    exact ⟨List.nil_suffix, List.length_pos_iff.2 hcs⟩
  | cons c rest =>
    rw [h] at hdrop
    obtain ⟨slice, hslice, -⟩ := Token.read_slice c rest
    have hread : (Token.read c rest).2 <:+ rest := ⟨slice, hslice.symm⟩
    rw [next, h]
    exact ⟨hread.trans ((List.suffix_cons c rest).trans hdrop),
      Nat.lt_of_le_of_lt hread.length_le hdrop.length_le⟩

end StoreQuery

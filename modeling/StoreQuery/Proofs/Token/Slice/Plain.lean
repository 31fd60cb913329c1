import StoreQuery.Proofs.Token.Ending
import StoreQuery.Proofs.Token.Literal

/-! # Names and numbers read again

The characters that a reader takes are enough to read the same again, at the end of a text and in
front of whatever ends a token in the same way. A number is read by one reader after the other, and
so it reads again because each of its parts does.
-/

namespace StoreQuery

open Number Text

namespace Token

section Readers

variable {α β : Type} {r : List Char → α × List Char} {cs : List Char}

/-- Whether the characters that a reader takes from the front of some characters give the same in
front of others where a token ends alike. -/
def ReadsAgain (read : List Char → α × List Char) (cs : List Char) : Prop :=
  ∃ slice, cs = slice ++ (read cs).2 ∧
    ∀ rest, EndsLike (read cs).2 rest → read (slice ++ rest) = ((read cs).1, rest)

namespace ReadsAgain

theorem nil {a : α} (h : r cs = (a, cs)) (hr : ∀ rest, EndsLike cs rest → r rest = (a, rest)) :
    ReadsAgain r cs := by
  rw [ReadsAgain, h]
  exact ⟨[], rfl, hr⟩

theorem map {r' : List Char → β × List Char} (h : ReadsAgain r cs) (f : α → β)
    (hf : ∀ ds, r' ds = (f (r ds).1, (r ds).2)) : ReadsAgain r' cs := by
  obtain ⟨slice, hcs, hread⟩ := h
  rw [ReadsAgain, hf]
  refine ⟨slice, hcs, fun rest hrest => ?_⟩
  rw [hf, hread rest hrest]

theorem andThen {g : α → List Char → β × List Char} (h : ReadsAgain r cs)
    (h' : ReadsAgain (g (r cs).1) (r cs).2) : ReadsAgain (fun ds => g (r ds).1 (r ds).2) cs := by
  obtain ⟨slice, hcs, hread⟩ := h
  obtain ⟨slice', hrest, hread'⟩ := h'
  refine ⟨slice ++ slice', by rw [List.append_assoc, ← hrest]; exact hcs, fun rest hlike => ?_⟩
  have hlike' := hlike.append slice'
  rw [← hrest] at hlike'
  show g (r (slice ++ slice' ++ rest)).1 (r (slice ++ slice' ++ rest)).2 = _
  rw [List.append_assoc, hread _ hlike']
  exact hread' rest hlike

theorem cons {c : Char} {r' : List Char → α × List Char} (h : ReadsAgain r cs)
    (hr : ∀ ds, r' (c :: ds) = r ds) : ReadsAgain r' (c :: cs) := by
  obtain ⟨slice, hcs, hread⟩ := h
  rw [ReadsAgain, hr]
  refine ⟨c :: slice, congrArg (c :: ·) hcs, fun rest hrest => ?_⟩
  rw [List.cons_append, hr, hread rest hrest]

theorem of_cons {c : Char} {r' : List Char → α × List Char} (h : ReadsAgain r (c :: cs))
    (hlength : (r (c :: cs)).2.length ≤ cs.length) (hr : ∀ ds, r' ds = r (c :: ds)) :
    ReadsAgain r' cs := by
  obtain ⟨slice, hcs, hread⟩ := h
  rw [ReadsAgain, hr]
  cases slice with
  | nil =>
    have := congrArg List.length hcs
    simp only [List.nil_append, List.length_cons] at this
    omega
  | cons d slice =>
    obtain ⟨rfl, hcs'⟩ := List.cons.inj hcs
    refine ⟨slice, hcs', fun rest hrest => ?_⟩
    rw [hr]
    exact hread rest hrest

end ReadsAgain

end Readers

section Names

variable {cs rest : List Char}

theorem readName_eq_append (cs : List Char) : (readName cs).1 ++ (readName cs).2 = cs := by
  fun_induction readName cs with
  | case1 => rfl
  | case2 c cs _ ih => rw [List.cons_append, ih]
  | case3 => rfl

theorem startsName_eq_any (cs : List Char) : startsName cs = cs.head?.any Name.isStart := by
  cases cs <;> rfl

theorem readName_rest (cs : List Char) : readName (readName cs).2 = ([], (readName cs).2) := by
  fun_induction readName cs with
  | case1 => rfl
  | case2 c cs _ ih => exact ih
  | case3 c cs h => rw [readName, if_neg h]

theorem EndsLike.startsName (h : EndsLike cs rest) (hcs : startsName cs = false) :
    startsName rest = false := by
  rw [startsName_eq_any, Option.any_eq_false] at *
  simpa using h.head .isStart (by simpa using hcs)

theorem readName_cons_eq_iff {c : Char} :
    readName (c :: cs) = ([], c :: cs) ↔
      Name.isPart c = false ∧ (c = '.' → startsName cs = false) := by
  rw [readName]
  split
  · next h =>
    simp only [Bool.or_eq_true, Bool.and_eq_true, beq_iff_eq] at h
    simp only [Prod.mk.injEq, reduceCtorEq, false_and, false_iff, not_and]
    intro hpart hpoint
    rcases h with h | ⟨hc, hstart⟩
    · exact absurd (hpart.symm.trans h) (by decide)
    · exact absurd ((hpoint hc).symm.trans hstart) (by decide)
  · next h =>
    simpa using h

theorem EndsLike.readName (h : EndsLike cs rest) (hcs : Token.readName cs = ([], cs)) :
    Token.readName rest = ([], rest) := by
  cases rest with
  | nil => rfl
  | cons d ds =>
    have hpart : ∀ c ∈ cs.head?, Name.isPart c = false := by
      cases cs with
      | nil => nofun
      | cons c cs =>
        rintro _ ⟨⟩
        exact (readName_cons_eq_iff.1 hcs).1
    refine readName_cons_eq_iff.2 ⟨h.head .isPart hpart d rfl, ?_⟩
    rintro rfl
    obtain ⟨es, rfl, h'⟩ := h.exists_mark (by decide)
    exact h'.startsName ((readName_cons_eq_iff.1 hcs).2 rfl)

/-- A plain name reads again: a point is taken only together with the segment after it. -/
theorem EndsLike.readName_append (h : EndsLike (Token.readName cs).2 rest) :
    Token.readName ((Token.readName cs).1 ++ rest) = ((Token.readName cs).1, rest) :=
  Token.readName_append (isDotted_readName cs).1 (h.readName (readName_rest cs))

theorem readsAgain_readName : ReadsAgain readName cs :=
  ⟨(readName cs).1, (readName_eq_append cs).symm, fun _ hrest => hrest.readName_append⟩

theorem startsName_readName_append (h : startsName cs = true) :
    startsName ((readName cs).1 ++ rest) = true := by
  cases cs with
  | nil => cases h
  | cons c cs =>
    have hc : Name.isStart c = true := h
    rw [readName, if_pos (by rw [Name.isPart_of_isStart hc, Bool.true_or])]
    exact h

theorem readQuotedName_slice {n : List Char} (h : readQuotedName cs = some (n, rest)) :
    ∃ slice, cs = slice ++ rest ∧ (∀ c ∈ rest.head?, (c == '\x60') = false) ∧
      ∀ rest', (∀ c ∈ rest'.head?, (c == '\x60') = false) →
        readQuotedName (slice ++ rest') = some (n, rest') := by
  fun_induction readQuotedName cs generalizing n with
  | case1 => cases h
  | case2 cs ih =>
    obtain ⟨⟨m, rest'⟩, hm, ⟨⟩⟩ := Option.map_eq_some_iff.1 h
    obtain ⟨slice, hcs, hend, hslice⟩ := ih hm
    refine ⟨'\x60' :: '\x60' :: slice, by rw [hcs]; rfl, hend, fun rest' hrest' => ?_⟩
    rw [List.cons_append, List.cons_append, readQuotedName, hslice rest' hrest']
    rfl
  | case3 cs hne =>
    cases h
    refine ⟨['\x60'], rfl, ?_, fun rest' hrest' => ?_⟩
    · intro c hc
      obtain ⟨es, rfl⟩ := List.head?_eq_some_iff.1 hc
      exact beq_eq_false_iff_ne.2 fun hc' => hne es (by rw [hc'])
    · rw [List.singleton_append, readQuotedName]
      rintro es rfl
      have hquote := hrest' _ rfl
      exact absurd hquote (by decide)
  | case4 c cs hdouble hne ih =>
    obtain ⟨⟨m, rest'⟩, hm, ⟨⟩⟩ := Option.map_eq_some_iff.1 h
    obtain ⟨slice, hcs, hend, hslice⟩ := ih hm
    refine ⟨c :: slice, by rw [hcs]; rfl, hend, fun rest' hrest' => ?_⟩
    rw [List.cons_append, readQuotedName, hslice rest' hrest']
    · rfl
    · exact fun _ hc _ => hne hc
    · exact hne

end Names

section Numbers

variable {negative : Bool} {whole fraction cs rest : List Char}

theorem forall_mem_takeWhile (cs : List Char) :
    ∀ c ∈ cs.takeWhile Char.isDigit, c.isDigit = true :=
  fun _ hc => by simpa using List.all_eq_true.1 (List.all_takeWhile (l := cs)) _ hc

def readDigits (cs : List Char) : List Char × List Char :=
  (cs.takeWhile Char.isDigit, cs.dropWhile Char.isDigit)

theorem endsDigits_dropWhile (cs : List Char) : EndsDigits (cs.dropWhile Char.isDigit) := by
  have h := List.head?_dropWhile_not Char.isDigit cs
  intro c hc
  rw [hc] at h
  exact h

theorem EndsLike.endsDigits (h : EndsLike cs rest) (hcs : EndsDigits cs) : EndsDigits rest :=
  h.head .isDigit hcs

theorem readsAgain_readDigits : ReadsAgain readDigits cs := by
  refine ⟨cs.takeWhile Char.isDigit, List.takeWhile_append_dropWhile.symm, fun rest hrest => ?_⟩
  have hdigits := hrest.endsDigits (endsDigits_dropWhile cs)
  rw [readDigits, hdigits.takeWhile (forall_mem_takeWhile cs),
    hdigits.dropWhile (forall_mem_takeWhile cs)]
  rfl

/-- A fraction is taken with its point. A point that no digits follow is left. -/
theorem readsAgain_readFraction : ReadsAgain readFraction cs := by
  have hnone : ∀ {cs}, (∀ ds, cs = '.' :: ds → EndsDigits ds) → readFraction cs = ([], cs) := by
    intro cs hcs
    unfold readFraction
    split
    · next ds =>
      have htake : ds.takeWhile Char.isDigit = [] := by
        simpa using @EndsDigits.takeWhile [] ds (hcs ds rfl) nofun
      rw [htake]
      rfl
    · rfl
  by_cases hfraction : ∃ ds, cs = '.' :: ds ∧ ds.takeWhile Char.isDigit ≠ []
  · obtain ⟨ds, rfl, hne⟩ := hfraction
    have hread : readFraction ('.' :: ds) = readDigits ds := by
      rw [readFraction, if_neg (by simpa using hne)]
      rfl
    refine ⟨'.' :: ds.takeWhile Char.isDigit, ?_, fun rest hrest => ?_⟩
    · rw [hread, List.cons_append]
      exact congrArg _ List.takeWhile_append_dropWhile.symm
    · rw [hread] at hrest ⊢
      exact readFraction_point (forall_mem_takeWhile ds) hne
        (hrest.endsDigits (endsDigits_dropWhile ds))
  · have hcs : ∀ ds, cs = '.' :: ds → EndsDigits ds := by
      rintro ds rfl c hc
      obtain ⟨es, rfl⟩ := List.head?_eq_some_iff.1 hc
      rw [Bool.eq_false_iff]
      intro hdigit
      exact hfraction ⟨c :: es, rfl, by rw [List.takeWhile_cons_of_pos hdigit]; simp⟩
    apply ReadsAgain.nil (hnone hcs)
    intro rest hrest
    apply hnone
    rintro ds rfl
    obtain ⟨es, hes, hlike⟩ := hrest.exists_mark (by decide)
    exact hlike.endsDigits (hcs es hes)

theorem readsAgain_readSign : ReadsAgain readSign cs := by
  unfold ReadsAgain readSign
  split
  · exact ⟨['+'], rfl, fun _ _ => rfl⟩
  · exact ⟨['-'], rfl, fun _ _ => rfl⟩
  · next hplus hminus =>
    refine ⟨[], rfl, fun rest hrest => ?_⟩
    rw [List.nil_append]
    split
    · obtain ⟨ds, hds, -⟩ := EndsLike.exists_mark (by decide) hrest
      exact absurd hds (hplus ds)
    · obtain ⟨ds, hds, -⟩ := EndsLike.exists_mark (by decide) hrest
      exact absurd hds (hminus ds)
    · rfl

def readExponent (negative : Bool) (whole fraction rest : List Char) : Token × List Char :=
  if rest.head? = some 'e' ∨ rest.head? = some 'E' then
    let (down, rest) := readSign rest.tail
    let digits := rest.takeWhile Char.isDigit
    if digits.isEmpty then (invalid .noExponent, rest)
    else
      let n : Int := Nat.ofDigitChars 10 digits 0
      (ofDecimal negative whole fraction (if down then -n else n), rest.dropWhile Char.isDigit)
  else if fraction.isEmpty then (ofDigits negative whole, rest)
  else (ofDecimal negative whole fraction 0, rest)

def ofExponent (negative : Bool) (whole fraction : List Char) (down : Bool) (digits : List Char) :
    Token :=
  if digits.isEmpty then invalid .noExponent
  else
    let n : Int := Nat.ofDigitChars 10 digits 0
    ofDecimal negative whole fraction (if down then -n else n)

theorem readExponent_cons {c : Char} (hc : c = 'e' ∨ c = 'E') :
    readExponent negative whole fraction (c :: cs) =
      (ofExponent negative whole fraction (readSign cs).1 (readDigits (readSign cs).2).1,
        (readDigits (readSign cs).2).2) := by
  have he : (c :: cs).head? = some 'e' ∨ (c :: cs).head? = some 'E' := by simpa using hc
  have hsplit := List.takeWhile_append_dropWhile (p := Char.isDigit) (l := (readSign cs).2)
  cases hempty : ((readSign cs).2.takeWhile Char.isDigit).isEmpty with
  | true =>
    rw [List.isEmpty_iff.1 hempty, List.nil_append] at hsplit
    simp only [readExponent, if_pos he, List.tail_cons, ofExponent, readDigits, hempty, if_true,
      hsplit]
  | false =>
    simp only [readExponent, if_pos he, List.tail_cons, ofExponent, readDigits, hempty,
      Bool.false_eq_true, if_false]
    rfl

theorem readExponent_of_ne (h : ∀ c ∈ cs.head?, (c == 'e' || c == 'E') = false) :
    readExponent negative whole fraction cs =
      (if fraction.isEmpty then ofDigits negative whole else ofDecimal negative whole fraction 0,
        cs) := by
  rw [readExponent, if_neg]
  · split <;> rfl
  · rintro (he | he)
    · exact absurd (h _ he) (by decide)
    · exact absurd (h _ he) (by decide)

theorem readsAgain_readExponent : ReadsAgain (readExponent negative whole fraction) cs := by
  by_cases he : ∃ c ds, cs = c :: ds ∧ (c = 'e' ∨ c = 'E')
  · obtain ⟨c, ds, rfl, hc⟩ := he
    have hdigits : ∀ down, ReadsAgain (fun es =>
        (ofExponent negative whole fraction down (readDigits es).1, (readDigits es).2))
        (readSign ds).2 :=
      fun down => readsAgain_readDigits.map _ fun _ => rfl
    have hexponent := readsAgain_readSign.andThen (g := fun down es =>
      (ofExponent negative whole fraction down (readDigits es).1, (readDigits es).2)) (hdigits _)
    exact hexponent.cons fun _ => readExponent_cons hc
  · have hcs : ∀ c ∈ cs.head?, (c == 'e' || c == 'E') = false := by
      intro c hc
      obtain ⟨es, rfl⟩ := List.head?_eq_some_iff.1 hc
      simpa using fun h => he ⟨c, es, rfl, h⟩
    apply ReadsAgain.nil (readExponent_of_ne hcs)
    exact fun rest hrest => readExponent_of_ne (hrest.head .exponent hcs)

theorem readsAgain_readNumber : ReadsAgain (readNumber negative) cs := by
  have hfraction : ∀ whole cs, ReadsAgain (fun ds =>
      readExponent negative whole (readFraction ds).1 (readFraction ds).2) cs :=
    fun _ _ => readsAgain_readFraction.andThen readsAgain_readExponent
  exact readsAgain_readDigits.andThen (g := fun whole ds =>
    readExponent negative whole (readFraction ds).1 (readFraction ds).2) (hfraction _ _)

end Numbers

end Token

end StoreQuery

import StoreQuery.Proofs.Token.Stream

/-! # Where tokens end

A reader that looks ahead stops because of a character which it leaves. It asks no more of this
character than tests which do not tell the cases of a letter apart and which no blank passes. So a
token that ends in front of some characters also ends at the end of a text, in front of a blank, and
in front of the same characters with letters in another case.
-/

namespace StoreQuery

open Text

theorem Text.toLower_eq_or (c : Char) : c.toLower = c ∨ ∃ n < 26, c = Char.ofNat (65 + n) := by
  unfold Char.toLower
  split
  · next h =>
    simp only [ge_iff_le, UInt32.le_iff_toNat_le, Char.toNat_val] at h
    have hlo : 65 ≤ c.toNat := h.1
    have hhi : c.toNat ≤ 90 := h.2
    refine Or.inr ⟨c.toNat - 65, by omega, ?_⟩
    rw [Nat.add_sub_cancel' hlo, Char.ofNat_toNat]
  · exact Or.inl rfl

/-- A test that does not tell the cases of the 26 letters apart. -/
theorem Text.toLower_eq_of_forall {p : Char → Bool}
    (h : ∀ n < 26, p (Char.ofNat (65 + n)).toLower = p (Char.ofNat (65 + n))) (c : Char) :
    p c.toLower = p c := by
  rcases toLower_eq_or c with hc | ⟨n, hn, rfl⟩
  · rw [hc]
  · exact h n hn

theorem Text.toLower_toLower (c : Char) : c.toLower.toLower = c.toLower := by
  rcases toLower_eq_or c with hc | ⟨n, hn, rfl⟩
  · rw [hc, hc]
  · have hall : ∀ n < 26,
        (Char.ofNat (65 + n)).toLower.toLower = (Char.ofNat (65 + n)).toLower := by
      decide +kernel
    exact hall n hn

theorem Text.isBlank_toLower (c : Char) : isBlank c.toLower = isBlank c :=
  toLower_eq_of_forall (by decide +kernel) c

namespace Token

/-- The characters that readers look for behind what they take. -/
def marks : List Char :=
  ['.', '+', '-', '/', '\x60', '=', '*', '\\']

/-- A test of characters that does not tell the cases of a letter apart, and that no blank
passes. -/
structure IsTest (p : Char → Bool) : Prop where
  toLower : ∀ c, p c.toLower = p c
  blank : ∀ c, isBlank c = true → p c = false

namespace IsTest

variable {p : Char → Bool}

/-- Only the 26 capital letters and the blanks have to be looked at. -/
theorem of_forall
    (hletter : ∀ n < 26, p (Char.ofNat (65 + n)).toLower = p (Char.ofNat (65 + n)))
    (hblank : ∀ r ∈ blanks.ranges, ∀ n < r.2 - r.1 + 1, p (Char.ofNat (r.1 + n)) = false) :
    IsTest p where
  toLower := toLower_eq_of_forall hletter
  blank c hc := by
    obtain ⟨r, hr, hlo, hhi⟩ := CharSet.contains_iff.1 hc
    have hchar : Char.ofNat (r.1 + (c.toNat - r.1)) = c := by
      rw [Nat.add_sub_cancel' hlo, Char.ofNat_toNat]
    rw [← hchar]
    exact hblank r hr _ (by omega)

theorem isStart : IsTest Name.isStart :=
  of_forall (by decide +kernel) (by decide +kernel)

theorem isPart : IsTest Name.isPart :=
  of_forall (by decide +kernel) (by decide +kernel)

theorem isDigit : IsTest Char.isDigit :=
  of_forall (by decide +kernel) (by decide +kernel)

theorem mark {m : Char} (hm : m ∈ marks) : IsTest (· == m) := by
  simp only [marks, List.mem_cons, List.not_mem_nil, or_false] at hm
  rcases hm with rfl | rfl | rfl | rfl | rfl | rfl | rfl | rfl
  all_goals exact of_forall (by decide +kernel) (by decide +kernel)

theorem exponent : IsTest fun c => c == 'e' || c == 'E' :=
  of_forall (by decide +kernel) (by decide +kernel)

end IsTest

theorem eq_mark {m c : Char} (hm : m ∈ marks) (h : c.toLower = m.toLower) : c = m := by
  have htest := (IsTest.mark hm).toLower
  have hc : (c == m) = true := by
    rw [← htest c, h, htest m]
    exact beq_self_eq_true m
  exact eq_of_beq hc

/-- Whether a token that ends in front of some characters ends in front of others. These go along
with the first, in whichever case, until a blank comes or the text ends. -/
inductive EndsLike : List Char → List Char → Prop where
  | nil {rest : List Char} : EndsLike rest []
  | blank {c : Char} {rest cs : List Char} (hrest : rest ≠ []) (hc : isBlank c = true) :
      EndsLike rest (c :: cs)
  | cons {c d : Char} {cs ds : List Char} (hcd : c.toLower = d.toLower) (h : EndsLike cs ds) :
      EndsLike (c :: cs) (d :: ds)

namespace EndsLike

variable {p : Char → Bool} {c : Char} {cs rest rest' : List Char}

theorem eq_nil (h : EndsLike [] rest) : rest = [] := by
  cases h with
  | nil => rfl
  | blank hrest => exact absurd rfl hrest

theorem append (slice : List Char) (h : EndsLike rest rest') :
    EndsLike (slice ++ rest) (slice ++ rest') := by
  induction slice with
  | nil => exact h
  | cons c slice ih => exact .cons rfl ih

theorem refl (rest : List Char) : EndsLike rest rest := by
  simpa using append rest (@nil [])

theorem head (hp : IsTest p) (h : EndsLike rest rest') (hrest : ∀ c ∈ rest.head?, p c = false) :
    ∀ c ∈ rest'.head?, p c = false := by
  cases h with
  | nil => nofun
  | blank _ hc =>
    rintro _ ⟨⟩
    exact hp.blank _ hc
  | @cons c d _ _ hcd =>
    rintro _ ⟨⟩
    rw [← hp.toLower, ← hcd, hp.toLower]
    exact hrest c rfl

theorem of_map_toLower (h : rest.map Char.toLower = rest'.map Char.toLower) :
    EndsLike rest rest' := by
  induction rest generalizing rest' with
  | nil =>
    rw [List.map_eq_nil_iff.1 h.symm]
    exact .nil
  | cons c cs ih =>
    cases rest' with
    | nil => exact .nil
    | cons d ds => exact .cons (List.cons.inj h).1 (ih (List.cons.inj h).2)

theorem exists_cons (hc : isBlank c = false) (h : EndsLike rest (c :: cs)) :
    ∃ d ds, rest = d :: ds ∧ d.toLower = c.toLower ∧ EndsLike ds cs := by
  cases h with
  | blank _ hc' => exact absurd (hc.symm.trans hc') (by decide)
  | cons hcd h => exact ⟨_, _, rfl, hcd, h⟩

theorem exists_mark {m : Char} (hm : m ∈ marks) (h : EndsLike rest (m :: cs)) :
    ∃ ds, rest = m :: ds ∧ EndsLike ds cs := by
  have hblank : isBlank m = false := by
    rw [Bool.eq_false_iff]
    intro hb
    simpa using (IsTest.mark hm).blank m hb
  obtain ⟨d, ds, rfl, hd, h'⟩ := h.exists_cons hblank
  rw [eq_mark hm hd]
  exact ⟨ds, rfl, h'⟩

end EndsLike

end Token

end StoreQuery

import Mathlib.Tactic.Ring
import Mathlib.Tactic.Linarith
import StoreQuery.Number.Binary64

/-! # Rounding to the nearest place

The magnitudes at two neighbouring places are neighbouring multiples of a power of two. A quotient
is rounded to a place exactly if it lies between the halfway points to the places beside it, where a
halfway point belongs to the even one of its two places.
-/

namespace StoreQuery.Number

theorem divNearest_of_lt {n d m : Nat} (h : m * d ≤ n) (h' : 2 * n < (2 * m + 1) * d) :
    divNearest n d = m := by
  have hq : n / d = m := Nat.div_eq_of_lt_le (by linarith) (by linarith)
  have hr := Nat.div_add_mod n d
  rw [hq] at hr
  have : 2 * (n % d) < d := by linarith
  simp only [divNearest, hq, if_pos this]

theorem divNearest_of_gt {n d m : Nat} (h : n < (m + 1) * d) (h' : (2 * m + 1) * d < 2 * n) :
    divNearest n d = m + 1 := by
  have hq : n / d = m := Nat.div_eq_of_lt_le (by linarith) (by linarith)
  have hr := Nat.div_add_mod n d
  rw [hq] at hr
  have : d < 2 * (n % d) := by linarith
  simp only [divNearest, hq, if_neg (Nat.lt_asymm this), if_pos this]

theorem divNearest_of_eq {n d m : Nat} (hd : 0 < d) (h : 2 * n = (2 * m + 1) * d) :
    divNearest n d = m + m % 2 := by
  have hq : n / d = m := Nat.div_eq_of_lt_le (by linarith) (by linarith)
  have hr := Nat.div_add_mod n d
  rw [hq] at hr
  have : 2 * (n % d) = d := by linarith
  simp only [divNearest, hq, this, lt_irrefl, if_false]

namespace Binary64

def gap (rank : Nat) : Nat :=
  rank / 0x10000000000000 - 1

/-- The magnitude at a place as a multiple of the distance to the next one. -/
def steps (rank : Nat) : Nat :=
  rank - gap rank * 0x10000000000000

theorem gap_mul_add_steps (rank : Nat) : gap rank * 0x10000000000000 + steps rank = rank := by
  unfold steps gap
  omega

theorem steps_lt (rank : Nat) : steps rank < 0x20000000000000 := by
  unfold steps gap
  omega

theorem le_steps {rank : Nat} (h : 0 < gap rank) : 0x10000000000000 ≤ steps rank := by
  unfold steps gap at *
  omega

theorem magnitude_eq (rank : Nat) : magnitude rank = steps rank * 2 ^ gap rank := by
  unfold magnitude
  split
  · have h0 : gap rank = 0 := by unfold gap; omega
    simp [steps, h0]
  · have hs : steps rank = 0x10000000000000 + rank % 0x10000000000000 := by unfold steps gap; omega
    rw [hs, gap, Nat.shiftLeft_eq]

theorem magnitude_succ (rank : Nat) :
    magnitude (rank + 1) = (steps rank + 1) * 2 ^ gap rank := by
  rw [magnitude_eq]
  rcases Nat.eq_or_lt_of_le (show gap rank ≤ gap (rank + 1) by unfold gap; omega) with h | h
  · have : steps (rank + 1) = steps rank + 1 := by
      unfold steps gap at *
      omega
    rw [this, h]
  · -- The next place begins a binade, where the distance is twice as large.
    have hg : gap (rank + 1) = gap rank + 1 := by unfold gap at *; omega
    have hs : steps (rank + 1) = 0x10000000000000 := by unfold steps gap at *; omega
    have hs' : steps rank + 1 = 0x20000000000000 := by unfold steps gap at *; omega
    rw [hg, hs, hs']
    ring

theorem magnitude_lt_succ (rank : Nat) : magnitude rank < magnitude (rank + 1) := by
  rw [magnitude_eq, magnitude_succ]
  exact Nat.mul_lt_mul_of_pos_right (Nat.lt_succ_self _) (Nat.two_pow_pos _)

end Binary64

open Binary64

/-- Between the magnitudes of two neighbouring places the unit of rounding is their distance. -/
theorem Format.round_double {num den n rank : Nat} (hn : num <<< 1074 = n)
    (h : magnitude rank * den ≤ n) (h' : n < magnitude (rank + 1) * den) :
    Format.double.round num den = (divNearest n (den * 2 ^ gap rank), gap rank) := by
  have hd : 0 < den := Nat.pos_of_ne_zero (by rintro rfl; simp at h')
  have hlo : magnitude rank ≤ n / den := (Nat.le_div_iff_mul_le hd).2 h
  have hhi : n / den < magnitude (rank + 1) := (Nat.div_lt_iff_lt_mul hd).2 h'
  have hlt : n / den < 2 ^ (53 + gap rank) := by
    refine Nat.lt_of_lt_of_le hhi ?_
    rw [magnitude_succ, Nat.pow_add]
    exact Nat.mul_le_mul_right _ (steps_lt rank)
  have hp : Nat.log2 (n / den) + 1 - 53 = gap rank := by
    generalize n / den = units at *
    rcases Nat.eq_zero_or_pos (gap rank) with h0 | hpos
    · have : Nat.log2 units < 53 := by
        by_cases hu : units = 0
        · simp [hu]
        · exact (Nat.log2_lt hu).2 (by simpa [h0] using hlt)
      omega
    · have hge : 2 ^ (52 + gap rank) ≤ units := by
        refine Nat.le_trans ?_ hlo
        rw [magnitude_eq, Nat.pow_add]
        exact Nat.mul_le_mul_right _ (le_steps hpos)
      have hu : units ≠ 0 := Nat.pos_iff_ne_zero.1 (Nat.lt_of_lt_of_le (Nat.two_pow_pos _) hge)
      have h1 := (Nat.le_log2 hu).2 hge
      have h2 := (Nat.log2_lt hu).2 hlt
      omega
  simp only [Format.round, Format.double, hn, hp, Nat.shiftLeft_eq]

namespace Binary64

/-- Whether `n / den` units are nearer to the magnitude at a place than to its neighbours; the
points midway belong to the even places. -/
def IsNearest (rank n den : Nat) : Prop :=
  if rank % 2 = 0 then
    (magnitude (rank - 1) + magnitude rank) * den ≤ 2 * n ∧
      2 * n ≤ (magnitude rank + magnitude (rank + 1)) * den
  else
    (magnitude (rank - 1) + magnitude rank) * den < 2 * n ∧
      2 * n < (magnitude rank + magnitude (rank + 1)) * den

section Nearest

variable {rank n den : Nat}

theorem IsNearest.bounds (h : IsNearest rank n den) :
    (magnitude (rank - 1) + magnitude rank) * den ≤ 2 * n ∧
      2 * n ≤ (magnitude rank + magnitude (rank + 1)) * den := by
  unfold IsNearest at h
  split at h
  · exact h
  · exact ⟨h.1.le, h.2.le⟩

theorem IsNearest.even_of_eq (h : IsNearest rank n den)
    (he : 2 * n = (magnitude (rank - 1) + magnitude rank) * den ∨
      2 * n = (magnitude rank + magnitude (rank + 1)) * den) : rank % 2 = 0 := by
  unfold IsNearest at h
  split at h
  · assumption
  · rcases he with he | he
    · exact absurd he.symm h.1.ne
    · exact absurd he h.2.ne

/-- The nearest place does not depend on how a quotient is written. -/
theorem IsNearest.mul {c : Nat} (h : IsNearest rank n den) (hc : 0 < c) :
    IsNearest rank (n * c) (den * c) := by
  unfold IsNearest at *
  rw [← Nat.mul_assoc, ← Nat.mul_assoc, ← Nat.mul_assoc]
  split at h
  · next he =>
    rw [if_pos he]
    exact ⟨Nat.mul_le_mul_right c h.1, Nat.mul_le_mul_right c h.2⟩
  · next he =>
    rw [if_neg he]
    exact ⟨Nat.mul_lt_mul_of_pos_right h.1 hc, Nat.mul_lt_mul_of_pos_right h.2 hc⟩

theorem steps_mod_two (rank : Nat) : steps rank % 2 = rank % 2 := by
  have := gap_mul_add_steps rank
  omega

theorem magnitude_mul (rank den : Nat) :
    magnitude rank * den = steps rank * (den * 2 ^ gap rank) := by
  rw [magnitude_eq]
  ring

theorem magnitude_succ_mul (rank den : Nat) :
    magnitude (rank + 1) * den = (steps rank + 1) * (den * 2 ^ gap rank) := by
  rw [magnitude_succ]
  ring

theorem IsNearest.round_of_le {num : Nat} (h : IsNearest rank n den) (hd : 0 < den)
    (hn : num <<< 1074 = n) (hle : magnitude rank * den ≤ n) :
    Format.double.round num den = (steps rank, gap rank) := by
  have hb := h.bounds.2
  have hlt : n < magnitude (rank + 1) * den := by
    have := Nat.mul_lt_mul_of_pos_right (magnitude_lt_succ rank) hd
    linarith
  rw [Format.round_double hn hle hlt]
  have hm := magnitude_mul rank den
  have hm' := magnitude_succ_mul rank den
  rcases Nat.lt_or_eq_of_le hb with hb | hb
  · rw [divNearest_of_lt (by linarith) (by linarith)]
  · have heven := h.even_of_eq (Or.inr hb)
    rw [divNearest_of_eq (Nat.mul_pos hd (Nat.two_pow_pos _)) (by linarith), steps_mod_two, heven,
      Nat.add_zero]

theorem IsNearest.round_of_lt {num : Nat} (h : IsNearest (rank + 1) n den) (hd : 0 < den)
    (hn : num <<< 1074 = n) (hlt : n < magnitude (rank + 1) * den) :
    Format.double.round num den = (steps rank + 1, gap rank) := by
  have hb := h.bounds.1
  rw [Nat.add_sub_cancel] at hb
  have hle : magnitude rank * den ≤ n := by
    have := Nat.mul_lt_mul_of_pos_right (magnitude_lt_succ rank) hd
    linarith
  rw [Format.round_double hn hle hlt]
  have hm := magnitude_mul rank den
  have hm' := magnitude_succ_mul rank den
  rcases Nat.lt_or_eq_of_le hb with hb | hb
  · rw [divNearest_of_gt (by linarith) (by linarith)]
  · have heven := h.even_of_eq (Or.inl (by rw [Nat.add_sub_cancel]; exact hb.symm))
    have hodd : steps rank % 2 = 1 := by
      rw [steps_mod_two]
      omega
    rw [divNearest_of_eq (Nat.mul_pos hd (Nat.two_pow_pos _)) (by linarith), hodd]

end Nearest

/-- A quotient is rounded to its nearest place. -/
theorem IsNearest.ofRatio? {rank : Fin magnitudeCount} {num den n : Nat}
    (h : IsNearest rank n den) (hd : 0 < den) (hn : num <<< 1074 = n) (negative : Bool) :
    Finite.ofRatio? negative num den = some ⟨negative, rank⟩ := by
  have hround : ∃ m p, Format.double.round num den = (m, p) ∧ p * 0x10000000000000 + m = rank := by
    rcases Nat.lt_or_ge n (magnitude rank * den) with hlt | hle
    · obtain ⟨s, hs⟩ : ∃ s, (rank : Nat) = s + 1 := by
        refine Nat.exists_eq_succ_of_ne_zero ?_
        intro h0
        simp [h0, magnitude] at hlt
      rw [hs] at h hlt ⊢
      refine ⟨_, _, h.round_of_lt hd hn hlt, ?_⟩
      have := gap_mul_add_steps s
      omega
    · exact ⟨_, _, h.round_of_le hd hn hle, gap_mul_add_steps rank⟩
  obtain ⟨m, p, hmp, hrank⟩ := hround
  rw [Finite.ofRatio?, hmp]
  simp only [hrank, rank.isLt, dif_pos, Fin.eta]

end Binary64

end StoreQuery.Number

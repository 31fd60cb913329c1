import StoreQuery.Number.Decimal
import StoreQuery.Proofs.Number.Nearest

/-! # Shortest digits read back

The search for the fewest digits always ends at a decimal that is nearest to the magnitude it
started from, and such a decimal is read as that magnitude.
-/

namespace StoreQuery.Number

open Binary64

namespace Binary64

theorem gap_lt {rank : Nat} (h : rank < magnitudeCount) : gap rank < 2046 := by
  unfold gap magnitudeCount at *
  omega

theorem magnitude_pos {rank : Nat} (h : 0 < rank) : 0 < magnitude rank := by
  obtain ⟨r, rfl⟩ : ∃ r, rank = r + 1 := ⟨rank - 1, by omega⟩
  exact Nat.lt_of_le_of_lt (Nat.zero_le _) (magnitude_lt_succ r)

theorem magnitude_lt (rank : Nat) : magnitude rank < 2 ^ (53 + gap rank) := by
  rw [magnitude_eq, Nat.pow_add]
  exact Nat.mul_lt_mul_of_pos_right (steps_lt rank) (Nat.two_pow_pos _)

theorem magnitude_succ_le {rank e : Nat} (h : gap rank ≤ e) :
    magnitude (rank + 1) ≤ 2 ^ (53 + e) := by
  rw [magnitude_succ, Nat.pow_add]
  exact Nat.mul_le_mul (steps_lt rank) (Nat.pow_le_pow_right (by decide) h)

theorem gap_eq_log2 {rank : Nat} (h : 0 < rank) :
    gap rank = Nat.log2 (magnitude rank) - 52 := by
  have hne : magnitude rank ≠ 0 := (magnitude_pos h).ne'
  have hlog := (Nat.log2_lt hne).2 (magnitude_lt rank)
  rcases Nat.eq_zero_or_pos (gap rank) with h0 | hpos
  · omega
  · have hle : 2 ^ (52 + gap rank) ≤ magnitude rank := by
      rw [magnitude_eq, Nat.pow_add]
      exact Nat.mul_le_mul_right _ (le_steps hpos)
    have := (Nat.le_log2 hne).2 hle
    omega

theorem log2_magnitude_lt {rank : Nat} (h0 : 0 < rank) (h : rank < magnitudeCount) :
    Nat.log2 (magnitude rank) < 2098 := by
  have := (Nat.log2_lt (magnitude_pos h0).ne').2 (magnitude_lt rank)
  have := gap_lt h
  omega

theorem magnitude_succ_eq_add (rank : Nat) :
    magnitude (rank + 1) = magnitude rank + 2 ^ gap rank := by
  rw [magnitude_succ, magnitude_eq, Nat.succ_mul]

theorem magnitude_pred_le (rank : Nat) : magnitude (rank - 1) ≤ magnitude rank := by
  cases rank with
  | zero => exact Nat.le_refl _
  | succ r => exact (magnitude_lt_succ r).le

end Binary64

namespace Decimal

def ReadsBack (rank : Nat) (d : Decimal) : Prop :=
  IsNearest rank (d.ratio.1 <<< 1074) d.ratio.2

theorem ratio_snd_pos (d : Decimal) : 0 < d.ratio.2 :=
  Nat.pow_pos (by decide)

theorem mul_shiftLeft_succ (m p e : Nat) : m * p <<< (e + 1) = 2 * (m * p) <<< e := by
  simp only [Nat.shiftLeft_eq, pow_succ]
  ring

theorem mul_shiftLeft (m p e : Nat) : (m * p) <<< e = m * p <<< e := by
  rw [Nat.shiftLeft_eq, Nat.shiftLeft_eq, Nat.mul_assoc]

theorem shiftLeft_mul_le {a b m e : Nat} (h : a * b ≤ m) : a <<< e * b ≤ m <<< e := by
  rw [Nat.shiftLeft_eq, Nat.shiftLeft_eq, Nat.mul_right_comm]
  exact Nat.mul_le_mul_right _ h

theorem two_mul_shiftLeft_lt {m e b : Nat} (hm : 0 < m) (h : 1 <<< (e + 1) < b) :
    2 * m <<< e < m * b := by
  rw [Nat.one_shiftLeft] at h
  rw [← Nat.shiftLeft_succ, Nat.shiftLeft_eq]
  exact Nat.mul_lt_mul_of_pos_left h hm

section OnGrid

variable {tie : Tie} {rank m n : Nat} {k : Int}

theorem readsBack_iff :
    (if rank % 2 = 0 then
        decide ((magnitude (rank - 1) + magnitude rank) * Nat.pow 10 (-k).toNat ≤
            m * Nat.pow 10 k.toNat <<< 1075) &&
          decide (m * Nat.pow 10 k.toNat <<< 1075 ≤
            (magnitude rank + magnitude (rank + 1)) * Nat.pow 10 (-k).toNat)
      else
        decide ((magnitude (rank - 1) + magnitude rank) * Nat.pow 10 (-k).toNat <
            m * Nat.pow 10 k.toNat <<< 1075) &&
          decide (m * Nat.pow 10 k.toNat <<< 1075 <
            (magnitude rank + magnitude (rank + 1)) * Nat.pow 10 (-k).toNat)) = true ↔
      ReadsBack rank ⟨m, k⟩ := by
  rw [ReadsBack, IsNearest, mul_shiftLeft_succ]
  split <;> simp only [Bool.and_eq_true, decide_eq_true_eq, ratio]

theorem readsBack_of_onGrid? (h : onGrid? tie rank k = some n) : ReadsBack rank ⟨n, k⟩ := by
  unfold onGrid? at h
  extract_lets scale unit value low high readsBack q below above at h
  have hback : ∀ m, readsBack m = true → ReadsBack rank ⟨m, k⟩ :=
    fun m hm => readsBack_iff.1 hm
  clear_value q readsBack unit
  split at h
  · next hq hq' =>
    split at h
    · cases h
      exact hback _ hq
    · split at h
      · cases h
        exact hback _ hq'
      · cases tie with
        | up =>
          cases h
          exact hback _ hq'
        | even =>
          cases h
          rcases Nat.mod_two_eq_zero_or_one q with h0 | h1
          · rw [h0]
            exact hback _ hq
          · rw [h1]
            exact hback _ hq'
  · next hq _ =>
    cases h
    exact hback _ hq
  · next hq' =>
    cases h
    exact hback _ hq'
  · cases h

/-- A grid that is finer than half the distance to the next magnitude has a point that reads
back. -/
theorem onGrid?_isSome (tie : Tie)
    (h : Nat.pow 10 k.toNat <<< 1075 < 2 ^ gap rank * Nat.pow 10 (-k).toNat) :
    (onGrid? tie rank k).isSome = true := by
  unfold onGrid?
  extract_lets scale unit value low high readsBack q below above
  have hpos : 0 < unit := Nat.shiftLeft_pos_iff.2 (Nat.pow_pos (by decide))
  have hlow : low ≤ value := by
    have := Nat.mul_le_mul_right scale (magnitude_pred_le rank)
    simp only [low, value]
    linarith
  have hhigh : value + unit < high := by
    have hs : high = value + 2 ^ gap rank * scale := by
      simp only [high, value, magnitude_succ_eq_add]
      ring
    rw [hs]
    exact Nat.add_lt_add_left h _
  -- The point above the quotient is at most one unit above the value, so below the next midpoint.
  have hq : readsBack (q + 1) = true := by
    have h1 : value < (q + 1) * unit := (Nat.div_lt_iff_lt_mul hpos).1 (Nat.lt_succ_self _)
    have h2 : (q + 1) * unit ≤ value + unit := by
      rw [Nat.succ_mul]
      exact Nat.add_le_add_right (Nat.div_mul_le_self value unit) unit
    simp only [readsBack]
    split
    · simp only [Bool.and_eq_true, decide_eq_true_eq]
      omega
    · simp only [Bool.and_eq_true, decide_eq_true_eq]
      omega
  clear_value q readsBack
  rw [hq]
  cases readsBack q
  · rfl
  · dsimp only
    split
    · rfl
    · split
      · rfl
      · cases tie <;> rfl

end OnGrid

theorem fine_enough : ∀ l : Nat, l < 2098 →
    Nat.pow 10 (((l : Int) - 1073) * 30103 / 100000 + 2 - 24).toNat <<< 1075 <
      Nat.pow 2 (l - 52) * Nat.pow 10 (-(((l : Int) - 1073) * 30103 / 100000 + 2 - 24)).toNat := by
  decide +kernel

theorem readsBack_search {tie : Tie} {rank : Nat} (steps : Nat) (k : Int)
    (h : (onGrid? tie rank (k - steps)).isSome = true) :
    ReadsBack rank (search tie rank steps k) := by
  induction steps generalizing k with
  | zero =>
    obtain ⟨n, hn⟩ := Option.isSome_iff_exists.1 h
    have hk : k - (0 : Nat) = k := by simp
    rw [hk] at hn
    rw [search, hn]
    exact readsBack_of_onGrid? hn
  | succ steps ih =>
    rw [search]
    split
    · next n hn => exact readsBack_of_onGrid? hn
    · refine ih _ ?_
      have hk : k - 1 - (steps : Int) = k - ((steps + 1 : Nat) : Int) := by omega
      rwa [hk]

/-- The shortest digits of a number read back as the number. -/
theorem readsBack_shortest (tie : Tie) {rank : Nat} (h0 : 0 < rank) (h : rank < magnitudeCount) :
    ReadsBack rank (shortest tie rank) := by
  rw [shortest, if_neg h0.ne']
  refine readsBack_search 24 _ (onGrid?_isSome tie ?_)
  rw [gap_eq_log2 h0]
  exact fine_enough _ (log2_magnitude_lt h0 h)

section ReadsBack

variable {rank : Nat} {d : Decimal}

theorem digits_bounds (h : d.digits ≠ 0) :
    10 ^ ((Nat.toDigits 10 d.digits).length - 1) ≤ d.digits ∧
      d.digits < 10 ^ (Nat.toDigits 10 d.digits).length := by
  have hpos := Nat.length_toDigits_pos (b := 10) (n := d.digits)
  refine ⟨?_, (Nat.length_toDigits_le_iff (by decide) hpos).1 (Nat.le_refl _)⟩
  rcases Nat.eq_zero_or_pos ((Nat.toDigits 10 d.digits).length - 1) with h0 | hlt
  · rw [h0]
    exact Nat.pos_of_ne_zero h
  · refine Nat.le_of_not_lt fun hcon => ?_
    have := (Nat.length_toDigits_le_iff (by decide) hlt).2 hcon
    omega

theorem ReadsBack.digits_ne_zero (h : ReadsBack rank d) (h0 : 0 < rank) : d.digits ≠ 0 := by
  intro hz
  have hn : d.ratio.1 <<< 1074 = 0 := by rw [ratio, hz, Nat.zero_mul, Nat.zero_shiftLeft]
  have hb := h.bounds.1
  have := Nat.mul_pos (Nat.add_pos_right (magnitude (rank - 1)) (magnitude_pos h0)) d.ratio_snd_pos
  omega

theorem ReadsBack.le_ratio {e : Nat} (h : ReadsBack rank d) (he : gap rank ≤ e) :
    d.ratio.1 <<< 1074 ≤ 2 ^ (53 + e) * d.ratio.2 := by
  have hmag := magnitude_succ_le he
  have := Nat.mul_le_mul_right d.ratio.2
    (Nat.add_le_add ((magnitude_lt_succ rank).le.trans hmag) hmag)
  have := h.bounds.2
  linarith

theorem ReadsBack.ratio_le (h : ReadsBack rank d) (h0 : 0 < rank) :
    d.ratio.2 ≤ 2 * d.ratio.1 <<< 1074 := by
  have := Nat.mul_le_mul_right d.ratio.2
    (Nat.add_pos_right (magnitude (rank - 1)) (magnitude_pos h0))
  rw [Nat.succ_mul, Nat.zero_mul] at this
  have := h.bounds.1
  linarith

theorem ReadsBack.leading_le (h : ReadsBack rank d) (h0 : 0 < rank) (hr : rank < magnitudeCount) :
    d.leading ≤ 400 := by
  refine Int.not_lt.1 fun hlt => ?_
  have hdigits := (digits_bounds (h.digits_ne_zero h0)).1
  have hlow : 10 ^ 401 * d.ratio.2 ≤ d.ratio.1 := by
    refine Nat.le_trans ?_ (Nat.mul_le_mul_right _ hdigits)
    show 10 ^ 401 * 10 ^ _ ≤ _ * 10 ^ _
    rw [← Nat.pow_add, ← Nat.pow_add]
    refine Nat.pow_le_pow_right (by decide) ?_
    unfold leading at hlt
    omega
  refine Nat.lt_irrefl (2 ^ (53 + 2045) * d.ratio.2) ?_
  calc 2 ^ (53 + 2045) * d.ratio.2
      < 10 ^ 401 <<< 1074 * d.ratio.2 :=
        Nat.mul_lt_mul_of_pos_right (by decide +kernel) d.ratio_snd_pos
    _ ≤ d.ratio.1 <<< 1074 := shiftLeft_mul_le hlow
    _ ≤ 2 ^ (53 + 2045) * d.ratio.2 := h.le_ratio (Nat.le_of_lt_succ (gap_lt hr))

theorem ReadsBack.le_leading (h : ReadsBack rank d) (h0 : 0 < rank) : -400 ≤ d.leading := by
  refine Int.not_lt.1 fun hlt => ?_
  have hdigits := (digits_bounds (h.digits_ne_zero h0)).2
  have hpos : 0 < d.ratio.1 :=
    Nat.mul_pos (Nat.pos_of_ne_zero (h.digits_ne_zero h0)) (Nat.pow_pos (by decide))
  have hhigh : d.ratio.1 * 10 ^ 400 ≤ d.ratio.2 := by
    refine Nat.le_trans (Nat.mul_le_mul_right _ (Nat.mul_le_mul_right _ hdigits.le)) ?_
    show 10 ^ _ * 10 ^ _ * 10 ^ 400 ≤ 10 ^ _
    rw [← Nat.pow_add, ← Nat.pow_add]
    refine Nat.pow_le_pow_right (by decide) ?_
    unfold leading at hlt
    omega
  refine Nat.lt_irrefl (d.ratio.1 * 10 ^ 400) ?_
  calc d.ratio.1 * 10 ^ 400
      ≤ 2 * d.ratio.1 <<< 1074 := Nat.le_trans hhigh (h.ratio_le h0)
    _ < d.ratio.1 * 10 ^ 400 := two_mul_shiftLeft_lt hpos (by decide +kernel)

theorem ReadsBack.toFinite? {rank : Fin magnitudeCount} (h : ReadsBack rank d) (h0 : 0 < rank.val)
    (negative : Bool) : d.toFinite? negative = some ⟨negative, rank⟩ := by
  have hhigh := h.leading_le h0 rank.isLt
  have hlow := h.le_leading h0
  rw [Decimal.toFinite?, if_neg (h.digits_ne_zero h0), if_neg (by omega), if_neg (by omega)]
  exact IsNearest.ofRatio? h d.ratio_snd_pos rfl negative

theorem ReadsBack.pad {m : Nat} {k : Int} (h : ReadsBack rank ⟨m, k⟩) (hk : 0 ≤ k) :
    ReadsBack rank ⟨10 * (10 ^ k.toNat * m), -1⟩ := by
  have h1 : (ratio ⟨10 * (10 ^ k.toNat * m), -1⟩).1 = (ratio ⟨m, k⟩).1 * 10 := by
    show 10 * (10 ^ k.toNat * m) * 1 = m * 10 ^ k.toNat * 10
    ring
  have h2 : (ratio ⟨10 * (10 ^ k.toNat * m), -1⟩).2 = (ratio ⟨m, k⟩).2 * 10 := by
    have : (-k).toNat = 0 := by omega
    simp only [ratio, this]
    rfl
  rw [ReadsBack, h1, h2, Nat.mul_comm _ 10, mul_shiftLeft, Nat.mul_comm 10]
  exact IsNearest.mul h (by decide)

end ReadsBack

end Decimal

end StoreQuery.Number

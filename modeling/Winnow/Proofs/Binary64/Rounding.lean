import Mathlib.Algebra.Group.Nat.Defs
import Winnow.Binary64

/-!
# Rounding of quotients

The rank nearest to a quotient depends on the quotient only, and a magnitude that has a rank is
rounded to it.  Quotients that are too large and those that are too small go to the two ends.

* `Binary64.roundRatio_congr` : equal quotients have one rank;
* `Binary64.roundingScale` : the scale at which a magnitude has at most 53 binary digits;
* `Binary64.roundRatio_rankUnits` : the magnitude of a rank is rounded to the rank;
* `Binary64.roundRatio_large`, `Binary64.roundRatio_small` : the two ends.
-/

namespace Winnow

/-! ## Division, half to even -/

theorem divHalfEven_mul_left {k : Nat} (hk : 0 < k) (n d : Nat) :
    divHalfEven (k * n) (k * d) = divHalfEven n d := by
  have htwice : 2 * (k * n % (k * d)) = k * (2 * (n % d)) := by
    rw [Nat.mul_mod_mul_left, Nat.mul_left_comm]
  unfold divHalfEven
  simp only [Nat.mul_div_mul_left n d hk, htwice, Nat.mul_lt_mul_left hk]

theorem divHalfEven_congr {n d n' d' : Nat} (hd : 0 < d) (hd' : 0 < d') (h : n * d' = n' * d) :
    divHalfEven n d = divHalfEven n' d' := by
  rw [← divHalfEven_mul_left hd' n d, ← divHalfEven_mul_left hd n' d', Nat.mul_comm d' n, h,
    Nat.mul_comm n' d, Nat.mul_comm d' d]

theorem divHalfEven_mul_self (q : Nat) {d : Nat} (hd : 0 < d) : divHalfEven (q * d) d = q := by
  unfold divHalfEven
  simp only [Nat.mul_div_cancel q hd, Nat.mul_mod_left, Nat.mul_zero, hd, if_true]

theorem div_le_divHalfEven (n d : Nat) : n / d ≤ divHalfEven n d := by
  unfold divHalfEven
  dsimp only
  split
  · exact Nat.le_refl _
  · split
    · exact Nat.le_succ _
    · exact Nat.le_add_right _ _

theorem divHalfEven_of_lt {n d : Nat} (h : 2 * n < d) : divHalfEven n d = 0 := by
  have hlt : n < d := by omega
  unfold divHalfEven
  simp only [Nat.div_eq_of_lt hlt, Nat.mod_eq_of_lt hlt, h, if_true]

theorem div_congr {n d n' d' : Nat} (hd : 0 < d) (hd' : 0 < d') (h : n * d' = n' * d) :
    n / d = n' / d' := by
  rw [← Nat.mul_div_mul_left n d hd', ← Nat.mul_div_mul_left n' d' hd, Nat.mul_comm d' n, h,
    Nat.mul_comm n' d, Nat.mul_comm d' d]

namespace Binary64

theorem unitsInOne_eq : unitsInOne = 2 ^ 1074 := by
  unfold unitsInOne
  exact Nat.pow_eq

theorem unitsInOne_pos : 0 < unitsInOne := unitsInOne_eq ▸ Nat.two_pow_pos 1074

/-! ## Quotients -/

/-- **Equal quotients have one rank.** -/
theorem roundRatio_congr {n d n' d' : Nat} (hd : 0 < d) (hd' : 0 < d') (h : n * d' = n' * d) :
    roundRatio n d = roundRatio n' d' := by
  have hunits : n * unitsInOne * d' = n' * unitsInOne * d := by
    rw [Nat.mul_right_comm, h, Nat.mul_right_comm]
  have hwhole : n * unitsInOne / d = n' * unitsInOne / d' := div_congr hd hd' hunits
  have hscaled : ∀ scale, divHalfEven (n * unitsInOne) (d * Nat.pow 2 scale) =
      divHalfEven (n' * unitsInOne) (d' * Nat.pow 2 scale) := by
    intro scale
    have hpow : 0 < Nat.pow 2 scale := Nat.pow_pos (by decide)
    refine divHalfEven_congr (Nat.mul_pos hd hpow) (Nat.mul_pos hd' hpow) ?_
    rw [← Nat.mul_assoc, hunits, Nat.mul_assoc]
  unfold roundRatio
  simp only [hwhole, hscaled]

/-! ## Scales -/

/-- The scale at which a magnitude is rounded, by the integer part of its units. -/
def roundingScale (whole : Nat) : Nat := if whole < Nat.pow 2 53 then 0 else whole.log2 - 52

theorem roundRatio_eq (n d : Nat) :
    roundRatio n d =
      min topRank (roundingScale (n * unitsInOne / d) * 2 ^ 52 +
        divHalfEven (n * unitsInOne) (d * 2 ^ roundingScale (n * unitsInOne / d))) := by
  rw [← Nat.pow_eq, ← Nat.pow_eq]
  rfl

theorem roundRatio_le_topRank (n d : Nat) : roundRatio n d ≤ topRank := Nat.min_le_left _ _

/-- At its scale a magnitude has at most 53 binary digits. -/
theorem lt_of_roundingScale (whole : Nat) : whole < 2 ^ 53 * 2 ^ roundingScale whole := by
  have hpow : Nat.pow 2 53 = 2 ^ 53 := Nat.pow_eq
  unfold roundingScale
  split
  · rename_i hsmall
    rwa [Nat.pow_zero, Nat.mul_one, ← hpow]
  · rw [← Nat.pow_add]
    exact Nat.lt_of_lt_of_le Nat.lt_log2_self (Nat.pow_le_pow_right (by decide) (by omega))

/-- Beyond the first scale it has 53 of them. -/
theorem le_of_roundingScale {whole : Nat} (h : 0 < roundingScale whole) :
    2 ^ 52 * 2 ^ roundingScale whole ≤ whole := by
  have hpow : Nat.pow 2 53 = 2 ^ 53 := Nat.pow_eq
  unfold roundingScale at h ⊢
  split at h
  · cases h
  · rename_i hlarge
    rw [if_neg hlarge, ← Nat.pow_add]
    have hexponent : 52 + (whole.log2 - 52) = whole.log2 := by omega
    rw [hexponent]
    refine Nat.log2_self_le ?_
    rintro rfl
    exact hlarge (hpow ▸ Nat.two_pow_pos 53)

/-! ## Magnitudes of ranks -/

/-- Beyond the first ranks a magnitude has 53 binary digits at its scale. -/
theorem rankSignificand_bounds {rank : Nat} (h : ¬ rank < Nat.pow 2 53) :
    2 ^ 52 ≤ rankSignificand rank ∧ rankSignificand rank < 2 ^ 53 := by
  have hstep : Nat.pow 2 52 = 4503599627370496 := rfl
  have hlimit : Nat.pow 2 53 = 9007199254740992 := rfl
  unfold rankSignificand rankScale
  rw [if_neg h, hstep]
  rw [hlimit] at h
  omega

theorem rankScale_mul_le {rank : Nat} : rankScale rank * Nat.pow 2 52 ≤ rank := by
  have hstep : Nat.pow 2 52 = 4503599627370496 := rfl
  unfold rankScale
  rw [hstep]
  split <;> omega

theorem log2_mul_two_pow {n k : Nat} (hlow : 2 ^ 52 ≤ n) (hhigh : n < 2 ^ 53) :
    (n * 2 ^ k).log2 = 52 + k := by
  have hpow : 0 < 2 ^ k := Nat.pow_pos (by decide)
  have hne : n * 2 ^ k ≠ 0 := by
    have hpos : 0 < n * 2 ^ k := Nat.mul_pos (by omega) hpow
    omega
  rw [Nat.log2_eq_iff hne]
  constructor
  · rw [Nat.pow_add]
    exact Nat.mul_le_mul_right _ hlow
  · have hsucc : 52 + k + 1 = 53 + k := by omega
    rw [hsucc, Nat.pow_add]
    exact Nat.mul_lt_mul_of_pos_right hhigh hpow

/-- **The magnitude of a rank is rounded to the rank**, however the quotient is written. -/
theorem roundRatio_rankUnits {rank n d : Nat} (hd : 0 < d) (hrank : rank < topRank)
    (h : n * unitsInOne = rankUnits rank * d) : roundRatio n d = rank := by
  have hwhole : n * unitsInOne / d = rankUnits rank := by rw [h, Nat.mul_div_cancel _ hd]
  have hscale : (if rankUnits rank < Nat.pow 2 53 then 0 else (rankUnits rank).log2 - 52) =
      rankScale rank := by
    -- The first ranks share the scale zero; beyond them the leading binary digit tells the scale.
    by_cases hsmall : rank < Nat.pow 2 53
    · have hunits : rankUnits rank = rank := by
        simp only [rankUnits, rankSignificand, rankScale, hsmall, if_true, Nat.zero_mul,
          Nat.sub_zero, Nat.pow_eq, Nat.pow_zero, Nat.mul_one]
      rw [hunits, if_pos hsmall, rankScale, if_pos hsmall]
    · obtain ⟨hlow, hhigh⟩ := rankSignificand_bounds hsmall
      have hone : 1 ≤ rankScale rank := by
        have hstep : Nat.pow 2 52 = 4503599627370496 := rfl
        have hlimit : Nat.pow 2 53 = 9007199254740992 := rfl
        unfold rankScale
        rw [if_neg hsmall, hstep]
        rw [hlimit] at hsmall
        omega
      have hlarge : ¬ rankUnits rank < Nat.pow 2 53 := by
        have hmul : 2 ^ 52 * 2 ^ 1 ≤ rankSignificand rank * 2 ^ rankScale rank :=
          Nat.mul_le_mul hlow (Nat.pow_le_pow_right (by decide) hone)
        exact Nat.not_lt.mpr hmul
      rw [if_neg hlarge, rankUnits, Nat.pow_eq, log2_mul_two_pow hlow hhigh]
      omega
  have hdivide : divHalfEven (n * unitsInOne) (d * Nat.pow 2 (rankScale rank)) =
      rankSignificand rank := by
    have hproduct : n * unitsInOne = rankSignificand rank * (d * Nat.pow 2 (rankScale rank)) := by
      rw [h, rankUnits, Nat.mul_assoc, Nat.mul_comm d]
    rw [hproduct]
    exact divHalfEven_mul_self _ (Nat.mul_pos hd (Nat.pow_pos (by decide)))
  have hsum : rankScale rank * Nat.pow 2 52 + rankSignificand rank = rank := by
    have hle := @rankScale_mul_le rank
    unfold rankSignificand
    omega
  unfold roundRatio
  simp only [hwhole, hscale, hdivide, hsum]
  exact Nat.min_eq_right (Nat.le_of_lt hrank)

/-! ## The two ends -/

/-- A quotient less than half of the least positive magnitude is rounded to zero. -/
theorem roundRatio_small {n d : Nat} (h : 2 * (n * unitsInOne) < d) : roundRatio n d = 0 := by
  have hwhole : n * unitsInOne / d = 0 := Nat.div_eq_of_lt (by omega)
  have hfirst : 0 < Nat.pow 2 53 := Nat.pow_pos (by decide)
  have hdivide : divHalfEven (n * unitsInOne) (d * Nat.pow 2 0) = 0 := by
    rw [Nat.pow_eq, Nat.pow_zero, Nat.mul_one]
    exact divHalfEven_of_lt h
  unfold roundRatio
  simp only [hwhole, hfirst, if_true, hdivide, Nat.zero_mul, Nat.add_zero, Nat.min_zero]

/-- A quotient beyond all finite magnitudes is rounded to infinity. -/
theorem roundRatio_large {n d : Nat} (hd : 0 < d) (h : d * 2 ^ 1024 ≤ n) :
    roundRatio n d = topRank := by
  have hunits : 2 ^ 2098 * d ≤ n * unitsInOne := by
    have hmul : d * 2 ^ 1024 * unitsInOne ≤ n * unitsInOne := Nat.mul_le_mul_right _ h
    have hsplit : 2 ^ 2098 * d = d * 2 ^ 1024 * unitsInOne := by
      rw [unitsInOne_eq, Nat.mul_assoc, ← Nat.pow_add, Nat.mul_comm]
    rw [hsplit]
    exact hmul
  have hwhole : 2 ^ 2098 ≤ n * unitsInOne / d := (Nat.le_div_iff_mul_le hd).mpr hunits
  rw [roundRatio_eq]
  generalize hscale : roundingScale (n * unitsInOne / d) = scale
  have hlarge : 2046 ≤ scale := by
    have hpow : 2 ^ 2098 < 2 ^ (53 + scale) := by
      refine Nat.lt_of_le_of_lt hwhole ?_
      rw [Nat.pow_add, ← hscale]
      exact lt_of_roundingScale _
    have hexponent := (Nat.pow_lt_pow_iff_right (by decide)).mp hpow
    omega
  have hquotient : 2 ^ 52 ≤ n * unitsInOne / (d * 2 ^ scale) := by
    rw [← Nat.div_div_eq_div_mul, Nat.le_div_iff_mul_le (Nat.two_pow_pos scale), ← hscale]
    exact le_of_roundingScale (by omega)
  have hdivide := div_le_divHalfEven (n * unitsInOne) (d * 2 ^ scale)
  have htop : topRank = 2046 * 2 ^ 52 + 2 ^ 52 := rfl
  rw [htop]
  refine Nat.min_eq_left (Nat.add_le_add (Nat.mul_le_mul_right _ hlarge) ?_)
  exact Nat.le_trans hquotient hdivide

end Binary64

end Winnow

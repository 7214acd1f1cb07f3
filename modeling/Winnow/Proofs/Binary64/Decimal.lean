import Winnow.Binary64.Decimal
import Winnow.Proofs.Binary64.Rounding

/-!
# Ranks of decimals

The bounds on the exponent only save time: the rank of a decimal is that of the quotient which it
stands for.  So zeros may be moved between the digits and the exponent, and the decimal that is
chosen for a rank is read back as the rank.

* `Binary64.rankOfDecimal_eq` : the rank of a decimal is that of a quotient;
* `Binary64.rankOfDecimal_zeros` : zeros at the end of the digits belong to the exponent;
* `Binary64.rankOfDecimal_shortest` : the decimal of a rank has this rank.
-/

namespace Winnow.Binary64

theorem two_pow_le_ten_pow (k : Nat) : 2 ^ (3 * k) ≤ 10 ^ k := by
  rw [Nat.pow_mul]
  exact Nat.pow_le_pow_left (by decide) k

/-- A decimal beyond the upper bound is larger than all finite numbers. -/
theorem roundRatio_of_large_exponent {digits exponent : Nat} (hdigits : 0 < digits)
    (h : 400 < exponent) : roundRatio (digits * 10 ^ exponent) 1 = topRank := by
  refine roundRatio_large Nat.one_pos ?_
  calc 1 * 2 ^ 1024 ≤ 2 ^ (3 * exponent) := by
        rw [Nat.one_mul]
        exact Nat.pow_le_pow_right (by decide) (by omega)
    _ ≤ 10 ^ exponent := two_pow_le_ten_pow exponent
    _ ≤ digits * 10 ^ exponent := Nat.le_mul_of_pos_left _ hdigits

/-- A decimal beyond the lower bound is smaller than all positive numbers. -/
theorem roundRatio_of_small_exponent {digits exponent : Nat} (h : 400 + digits.log2 < exponent) :
    roundRatio digits (10 ^ exponent) = 0 := by
  refine roundRatio_small ?_
  have hdigits : digits < 2 ^ (digits.log2 + 1) := Nat.lt_log2_self
  calc 2 * (digits * unitsInOne) < 2 * (2 ^ (digits.log2 + 1) * unitsInOne) := by
        have hmul := Nat.mul_lt_mul_of_pos_right hdigits unitsInOne_pos
        omega
    _ = 2 ^ (1 + (digits.log2 + 1 + 1074)) := by
        rw [unitsInOne_eq, Nat.pow_add 2 1, Nat.pow_add 2 (digits.log2 + 1), Nat.pow_one]
    _ ≤ 2 ^ (3 * exponent) := Nat.pow_le_pow_right (by decide) (by omega)
    _ ≤ 10 ^ exponent := two_pow_le_ten_pow exponent

/-- **The rank of a decimal is that of the quotient which it stands for.** -/
theorem rankOfDecimal_eq (x : Decimal) :
    rankOfDecimal x =
      roundRatio (x.digits * 10 ^ x.exponent.toNat) (10 ^ (-x.exponent).toNat) := by
  -- Of the two powers of ten one is 1, and at each bound rounding gives what the bound says.
  unfold rankOfDecimal
  split
  · rename_i hzero
    have hpos : 0 < 10 ^ (-x.exponent).toNat := Nat.pow_pos (by decide)
    rw [hzero, Nat.zero_mul, roundRatio_small (by omega)]
  · rename_i hne
    split
    · rename_i hlarge
      have hdenominator : (-x.exponent).toNat = 0 := by omega
      rw [hdenominator, Nat.pow_zero, roundRatio_of_large_exponent (by omega) (by omega)]
    · split
      · rename_i hsmall
        have hnumerator : x.exponent.toNat = 0 := by omega
        rw [hnumerator, Nat.pow_zero, Nat.mul_one, roundRatio_of_small_exponent (by omega)]
      · split
        · rename_i hsign
          have hdenominator : (-x.exponent).toNat = 0 := by omega
          rw [hdenominator, Nat.pow_zero, Nat.pow_eq]
        · rename_i hsign
          have hnumerator : x.exponent.toNat = 0 := by omega
          rw [hnumerator, Nat.pow_zero, Nat.mul_one, Nat.pow_eq]

/-- **Zeros at the end of the digits belong to the exponent.** -/
theorem rankOfDecimal_zeros (digits zeros : Nat) (exponent : Int) :
    rankOfDecimal ⟨digits * 10 ^ zeros, exponent⟩ = rankOfDecimal ⟨digits, exponent + zeros⟩ := by
  have hexponents : zeros + exponent.toNat + (-(exponent + zeros)).toNat =
      (exponent + zeros).toNat + (-exponent).toNat := by omega
  rw [rankOfDecimal_eq, rankOfDecimal_eq]
  refine roundRatio_congr (Nat.pow_pos (by decide)) (Nat.pow_pos (by decide)) ?_
  dsimp only
  rw [Nat.mul_assoc digits, Nat.mul_assoc digits, Nat.mul_assoc digits, ← Nat.pow_add,
    ← Nat.pow_add, ← Nat.pow_add, hexponents]

/-! ## The decimal of a rank -/

/-- A magnitude in decimal, with all its digits, has its rank. -/
theorem rankOfDecimal_units {rank places : Nat} (hrank : rank < topRank)
    (hplaces : unitsInOne = 2 ^ places) :
    rankOfDecimal ⟨rankUnits rank * Nat.pow 5 places, -(places : Int)⟩ = rank := by
  have hnumerator : (-(places : Int)).toNat = 0 := by omega
  have hdenominator : (-(-(places : Int))).toNat = places := by omega
  rw [rankOfDecimal_eq]
  refine roundRatio_rankUnits (Nat.pow_pos (by decide)) hrank ?_
  dsimp only
  rw [hnumerator, hdenominator, hplaces, Nat.pow_eq, Nat.pow_zero, Nat.mul_one, Nat.mul_assoc,
    ← Nat.mul_pow]

/-- **The decimal that is chosen for a rank has this rank.** -/
theorem rankOfDecimal_shortest {rank : Nat} (hrank : rank < topRank) :
    rankOfDecimal (shortest rank) = rank := by
  unfold shortest
  cases hfound : (candidates (rankUnits rank)).find? fun x => rankOfDecimal x == rank with
  | none => exact rankOfDecimal_units hrank unitsInOne_eq
  | some x =>
    have hread := List.find?_some hfound
    exact beq_iff_eq.mp hread

theorem shortest_digits_pos {rank : Nat} (hpos : 0 < rank) (hrank : rank < topRank) :
    0 < (shortest rank).digits := by
  have hread := rankOfDecimal_shortest hrank
  refine Nat.pos_of_ne_zero fun hzero => ?_
  rw [rankOfDecimal, if_pos hzero] at hread
  omega

end Winnow.Binary64

import Mathlib.Algebra.Order.Ring.Int
import Mathlib.Data.Prod.Lex
import Mathlib.Order.Compare
import Mathlib.Order.Monotone.Basic
import Winnow.Proofs.Binary64.Decimal
import Winnow.Value

/-!
# The order of numbers

Integers and binary64 numbers are compared without rounding.  The comparison is that of their
levels: finite numbers by their units, and the two infinities beyond all of them.

* `Binary64.rankUnits_strictMono` : a greater rank has a greater magnitude;
* `Binary64.orderInt?_of_toInt?`, `Binary64.natAbs_toInt?_lt` : an integral number is compared as an
  integer, of at most 342 digits;
* `Value.Numeric.level` : the place of a number among all integers and binary64 numbers;
* `Value.Numeric.order?_eq` : comparison is that of levels, unless an operand is no number.
-/

namespace Winnow

namespace Binary64

/-- The first two runs of ranks share the scale zero. -/
theorem rankScale_eq (rank : Nat) : rankScale rank = rank / 4503599627370496 - 1 := by
  have hstep : Nat.pow 2 52 = 4503599627370496 := rfl
  have hlimit : Nat.pow 2 53 = 9007199254740992 := rfl
  unfold rankScale
  rw [hstep, hlimit]
  split <;> omega

theorem rankSignificand_eq (rank : Nat) :
    rankSignificand rank = rank - (rank / 4503599627370496 - 1) * 4503599627370496 := by
  have hstep : Nat.pow 2 52 = 4503599627370496 := rfl
  unfold rankSignificand
  rw [rankScale_eq, hstep]

/-- **A greater rank has a greater magnitude.** -/
theorem rankUnits_strictMono : StrictMono rankUnits := by
  refine strictMono_nat_of_lt_succ fun rank => ?_
  have hpow : 0 < Nat.pow 2 (rankScale rank) := Nat.pow_pos (by decide)
  -- Within one scale the significand grows by one; the next scale doubles what it starts with.
  have hscales : rankScale (rank + 1) = rankScale rank ∨
      rankScale (rank + 1) = rankScale rank + 1 := by
    rw [rankScale_eq, rankScale_eq]
    omega
  unfold rankUnits
  rcases hscales with hsame | hnext
  · have hsignificand : rankSignificand rank < rankSignificand (rank + 1) := by
      rw [rankScale_eq, rankScale_eq] at hsame
      rw [rankSignificand_eq, rankSignificand_eq, hsame]
      omega
    rw [hsame]
    exact Nat.mul_lt_mul_of_pos_right hsignificand hpow
  · have hdoubled : rankSignificand rank < rankSignificand (rank + 1) * 2 := by
      rw [rankScale_eq, rankScale_eq] at hnext
      rw [rankSignificand_eq, rankSignificand_eq, hnext]
      omega
    calc rankSignificand rank * Nat.pow 2 (rankScale rank)
        < rankSignificand (rank + 1) * 2 * Nat.pow 2 (rankScale rank) :=
          Nat.mul_lt_mul_of_pos_right hdoubled hpow
      _ = rankSignificand (rank + 1) * Nat.pow 2 (rankScale (rank + 1)) := by
          rw [hnext, Nat.pow_eq, Nat.pow_eq, Nat.pow_succ, Nat.mul_assoc, Nat.mul_comm 2]

theorem rankUnits_zero : rankUnits 0 = 0 := by
  rw [rankUnits, rankSignificand_eq, Nat.zero_sub, Nat.zero_mul]

/-- The units of a place in the numerical order. -/
def placeUnits (place : Int) : Int :=
  if place < 0 then -(rankUnits place.natAbs : Int) else rankUnits place.natAbs

theorem placeUnits_lt {p q : Int} (hpq : p < q) : placeUnits p < placeUnits q := by
  have hmono : ∀ {m n : Nat}, m < n → rankUnits m < rankUnits n := fun h => rankUnits_strictMono h
  have hzero := rankUnits_zero
  unfold placeUnits
  by_cases hp : p < 0
  · by_cases hq : q < 0
    · have hunits := @hmono q.natAbs p.natAbs (by omega)
      rw [if_pos hp, if_pos hq]
      omega
    · have hunits := @hmono 0 p.natAbs (by omega)
      rw [if_pos hp, if_neg hq]
      omega
  · have hunits := @hmono p.natAbs q.natAbs (by omega)
    rw [if_neg hp, if_neg (by omega)]
    omega

theorem compare_placeUnits (p q : Int) : compare (placeUnits p) (placeUnits q) = compare p q := by
  have hmono : StrictMono placeUnits := fun _ _ hpq => placeUnits_lt hpq
  rw [← cmp_eq_compare, ← cmp_eq_compare]
  exact hmono.cmp_map_eq p q

theorem placeUnits_signed (negative : Bool) (rank : Nat) :
    placeUnits (if negative then -(rank : Int) else rank) =
      if negative then -(rankUnits rank : Int) else rankUnits rank := by
  have hzero := rankUnits_zero
  unfold placeUnits
  cases negative with
  | false => simp
  | true =>
    rcases Nat.eq_zero_or_pos rank with rfl | hpos
    · simp [hzero]
    · simp [hpos]

/-! ## Integers -/

theorem toInt?_units {x : Binary64} {n : Int} (h : x.toInt? = some n) :
    x.units? = some (n * unitsInOne) := by
  obtain ⟨u, hu, h⟩ := Option.bind_eq_some_iff.mp h
  split at h
  · rename_i hmod
    rw [hu, ← Option.some.inj h, Int.ediv_mul_cancel (Int.dvd_of_emod_eq_zero hmod)]
  · cases h

theorem compare_mul_unitsInOne (m n : Int) :
    compare (m * unitsInOne) (n * unitsInOne) = compare m n := by
  have hpos : (0 : Int) < unitsInOne := Int.natCast_pos.mpr unitsInOne_pos
  have hmono : StrictMono fun n : Int => n * unitsInOne :=
    fun a b hab => Int.mul_lt_mul_of_pos_right hab hpos
  rw [← cmp_eq_compare, ← cmp_eq_compare]
  exact hmono.cmp_map_eq m n

/-- An integral number is compared with integers as the integer that it is. -/
theorem orderInt?_of_toInt? {x : Binary64} {n : Int} (h : x.toInt? = some n) (m : Int) :
    orderInt? m x = some (compare m n) := by
  have hunits := toInt?_units h
  cases x with
  | nan => cases hunits
  | number negative rank =>
    unfold units? at hunits
    unfold orderInt?
    dsimp only at hunits ⊢
    split at hunits
    · rename_i hfinite
      rw [if_pos hfinite, Option.some.inj hunits, compare_mul_unitsInOne]
    · cases hunits

/-- The magnitude that infinity would have is that of the power of two beyond all numbers. -/
theorem rankUnits_topRank : rankUnits topRank = 2 ^ 1024 * unitsInOne := by
  have hscale : rankScale topRank + 52 = 1024 + 1074 := by rw [rankScale_eq]; rfl
  have hsignificand : rankSignificand topRank = 2 ^ 52 := by rw [rankSignificand_eq]; rfl
  calc rankUnits topRank = 2 ^ 52 * 2 ^ rankScale topRank := by
        rw [rankUnits, hsignificand, Nat.pow_eq]
    _ = 2 ^ (rankScale topRank + 52) := by rw [Nat.mul_comm, ← Nat.pow_add]
    _ = 2 ^ 1024 * unitsInOne := by rw [hscale, Nat.pow_add, unitsInOne_eq]

/-- An integral number has at most 342 digits. -/
theorem natAbs_toInt?_lt {x : Binary64} {n : Int} (h : x.toInt? = some n) {width : Nat}
    (hwidth : 342 ≤ width) : n.natAbs < 10 ^ width := by
  have hunits := toInt?_units h
  have hmagnitude : n.natAbs * unitsInOne < 2 ^ 1024 * unitsInOne := by
    cases x with
    | nan => cases hunits
    | number negative rank =>
      unfold units? at hunits
      dsimp only at hunits
      split at hunits
      · rename_i hfinite
        have hless := rankUnits_strictMono hfinite
        rw [rankUnits_topRank] at hless
        have habs : (n * unitsInOne).natAbs = rankUnits rank.val := by
          rw [← Option.some.inj hunits]
          cases negative with
          | false => rw [if_neg Bool.false_ne_true, Int.natAbs_natCast]
          | true => rw [if_pos rfl, Int.natAbs_neg, Int.natAbs_natCast]
        rwa [← habs, Int.natAbs_mul, Int.natAbs_natCast] at hless
      · cases hunits
  calc n.natAbs < 2 ^ 1024 := Nat.lt_of_mul_lt_mul_right hmagnitude
    _ ≤ 2 ^ (3 * width) := Nat.pow_le_pow_right (by decide) (by omega)
    _ ≤ 10 ^ width := two_pow_le_ten_pow width

/-! ## Numbers that are computed -/

theorem isNaN_ofRatio (negative : Bool) (n d : Nat) : (ofRatio negative n d).isNaN = false := by
  unfold ofRatio ofRank
  split <;> rfl

theorem isNaN_ofInt? {n : Int} {x : Binary64} (h : ofInt? n = some x) : x.isNaN = false := by
  unfold ofInt? at h
  dsimp only at h
  split at h
  · cases h
    exact isNaN_ofRatio _ _ _
  · cases h

theorem isFinite_ofRank_topRank (negative : Bool) : (ofRank negative topRank).isFinite = false := by
  cases negative <;> rfl

/-- A large power of ten is beyond the finite numbers. -/
theorem ofInt?_ten_pow {exponent : Nat} (h : 400 < exponent) :
    ofInt? (10 ^ exponent) = none := by
  have hrank : roundRatio (10 ^ exponent) 1 = topRank := by
    rw [← Nat.one_mul (10 ^ exponent)]
    exact roundRatio_of_large_exponent Nat.one_pos h
  have habs : (10 ^ exponent : Int).natAbs = 10 ^ exponent := Int.natAbs_pow 10 exponent
  rw [ofInt?, ofRatio, habs, hrank]
  simp only [isFinite_ofRank_topRank, Bool.false_eq_true, if_false]

theorem isNaN_scale {x : Binary64} (hx : x.isNaN = false) (n d : Nat) :
    (x.scale n d).isNaN = false := by
  cases x with
  | nan => cases hx
  | number negative rank =>
    unfold scale
    dsimp only
    split
    · exact isNaN_ofRatio _ _ _
    · rfl

end Binary64

namespace Value.Numeric

open Binary64

/-- Whether a number is not a number. -/
def isNaN : Numeric → Bool
  | .int _ => false
  | .float x => x.isNaN

/-- The place of a number among all integers and binary64 numbers: the sign of an infinite one, or
else the units. -/
def level : Numeric → ℤ ×ₗ ℤ
  | .int n => toLex (0, n * unitsInOne)
  | .float .nan => toLex (0, 0)
  | .float (.number negative rank) =>
    if rank.val < topRank then
      toLex (0, if negative then -(rankUnits rank.val : Int) else rankUnits rank.val)
    else toLex (if negative then -1 else 1, 0)

theorem level_int (n : Int) : level (.int n) = toLex (0, n * unitsInOne) := rfl

theorem level_finite (negative : Bool) {rank : Fin (topRank + 1)} (hfinite : rank.val < topRank) :
    level (.float (.number negative rank)) =
      toLex (0, placeUnits (if negative then -(rank.val : Int) else rank.val)) := by
  rw [placeUnits_signed]
  exact if_pos hfinite

theorem level_infinite (negative : Bool) {rank : Fin (topRank + 1)} (htop : ¬rank.val < topRank) :
    level (.float (.number negative rank)) = toLex (if negative then -1 else 1, 0) :=
  if_neg htop

theorem compare_toLex (a b c d : Int) :
    compare (toLex (a, b)) (toLex (c, d)) = (compare a c).then (compare b d) := rfl

theorem orderInt?_eq (n : Int) {x : Binary64} (hx : x.isNaN = false) :
    orderInt? n x = some (compare (level (.int n)) (level (.float x))) := by
  cases x with
  | nan => cases hx
  | number negative rank =>
    by_cases hfinite : rank.val < topRank
    · rw [level_int, level_finite negative hfinite, compare_toLex, placeUnits_signed]
      exact if_pos hfinite
    · rw [level_int, level_infinite negative hfinite, compare_toLex]
      refine (if_neg hfinite).trans ?_
      cases negative with
      | false => rfl
      | true => rfl

theorem order?_float {x y : Binary64} (hx : x.isNaN = false) (hy : y.isNaN = false) :
    x.order? y = some (compare (level (.float x)) (level (.float y))) := by
  cases x with
  | nan => cases hx
  | number negative rank =>
    cases y with
    | nan => cases hy
    | number negative' rank' =>
      show some (compare _ _) = some _
      congr 1
      have htop : topRank = 9218868437227405312 := rfl
      by_cases hfinite : rank.val < topRank
      · by_cases hfinite' : rank'.val < topRank
        · rw [level_finite _ hfinite, level_finite _ hfinite', compare_toLex, compare_placeUnits]
          rfl
        · rw [level_finite _ hfinite, level_infinite _ hfinite', compare_toLex]
          cases negative' with
          | false => exact compare_lt_iff_lt.mpr (by cases negative <;> simp <;> omega)
          | true => exact compare_gt_iff_gt.mpr (by cases negative <;> simp <;> omega)
      · by_cases hfinite' : rank'.val < topRank
        · rw [level_infinite _ hfinite, level_finite _ hfinite', compare_toLex]
          cases negative with
          | false => exact compare_gt_iff_gt.mpr (by cases negative' <;> simp <;> omega)
          | true => exact compare_lt_iff_lt.mpr (by cases negative' <;> simp <;> omega)
        · have hrank : rank.val = rank'.val := by omega
          rw [level_infinite _ hfinite, level_infinite _ hfinite', compare_toLex, hrank]
          cases negative with
          | false =>
            cases negative' with
            | false => exact compare_eq_iff_eq.mpr rfl
            | true => exact compare_gt_iff_gt.mpr (by simp; omega)
          | true =>
            cases negative' with
            | false => exact compare_lt_iff_lt.mpr (by simp; omega)
            | true => exact compare_eq_iff_eq.mpr rfl

/-- **Comparison of numbers is that of their levels**, unless one of them is no number. -/
theorem order?_eq {x y : Numeric} (hx : x.isNaN = false) (hy : y.isNaN = false) :
    x.order? y = some (compare x.level y.level) := by
  cases x with
  | int m =>
    cases y with
    | int n =>
      rw [level_int, level_int, compare_toLex, compare_mul_unitsInOne]
      rfl
    | float y => exact orderInt?_eq m hy
  | float x =>
    cases y with
    | int n =>
      show (orderInt? n x).map Ordering.swap = _
      rw [orderInt?_eq n hx, Option.map_some, ← cmp_eq_compare, cmp_swap, cmp_eq_compare]
    | float y => exact order?_float hx hy

end Value.Numeric

end Winnow

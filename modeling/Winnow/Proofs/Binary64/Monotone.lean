import Winnow.Proofs.Binary64.Order

/-!
# Rounding keeps the order

The nearest number to a greater quotient is not less, so that rounding two numbers can make them
equal but does not change which of them is less.  An integer of at most 53 binary digits is a
binary64 number, and is not changed.

* `Binary64.roundRatio_mono` : a greater quotient has no lesser rank;
* `Binary64.roundedPlace_mono` : nor has it a lesser place, with signs;
* `Binary64.ofInt?_eq_none_iff` : the integers that are beyond all numbers;
* `Binary64.exists_rankUnits_eq` : a short integer has a rank;
* `Value.Numeric.order?_round` : the comparison of two numbers after both are rounded;
* `Value.Numeric.level_ofRatio` : short integers keep their levels.
-/

namespace Winnow

/-! ## Division, half to even -/

theorem divHalfEven_le_succ (n d : Nat) : divHalfEven n d ≤ n / d + 1 := by
  unfold divHalfEven
  dsimp only
  split
  · exact Nat.le_succ _
  · split
    · exact Nat.le_refl _
    · have hparity := Nat.mod_lt (n / d) (y := 2) (by decide)
      omega

theorem divHalfEven_mono {n n' : Nat} (d : Nat) (h : n ≤ n') :
    divHalfEven n d ≤ divHalfEven n' d := by
  rcases Nat.lt_or_eq_of_le (Nat.div_le_div_right (c := d) h) with hlt | heq
  · calc divHalfEven n d ≤ n / d + 1 := divHalfEven_le_succ n d
      _ ≤ n' / d := hlt
      _ ≤ divHalfEven n' d := div_le_divHalfEven n' d
  · -- Between two integers the remainder decides.
    have hremainder : n % d ≤ n' % d := by
      have hn := Nat.div_add_mod n d
      have hn' := Nat.div_add_mod n' d
      rw [heq] at hn
      omega
    have hparity := Nat.mod_lt (n' / d) (y := 2) (by decide)
    unfold divHalfEven
    dsimp only
    rw [heq]
    split_ifs <;> omega

namespace Binary64

/-! ## Ranks -/

theorem roundingScale_mono {whole whole' : Nat} (h : whole ≤ whole') :
    roundingScale whole ≤ roundingScale whole' := by
  by_contra hscale
  have hlow : 2 ^ 52 * 2 ^ roundingScale whole ≤ whole := le_of_roundingScale (by omega)
  have hhigh := lt_of_roundingScale whole'
  have hpow : 2 ^ 53 * 2 ^ roundingScale whole' ≤ 2 ^ 52 * 2 ^ roundingScale whole := by
    rw [← Nat.pow_add, ← Nat.pow_add]
    exact Nat.pow_le_pow_right (by decide) (by omega)
  omega

/-- **A greater quotient has no lesser rank.** -/
theorem roundRatio_mono {n n' : Nat} (d : Nat) (h : n ≤ n') :
    roundRatio n d ≤ roundRatio n' d := by
  have hunits : n * unitsInOne ≤ n' * unitsInOne := Nat.mul_le_mul_right _ h
  have hwhole : n * unitsInOne / d ≤ n' * unitsInOne / d := Nat.div_le_div_right hunits
  rw [roundRatio_eq, roundRatio_eq]
  refine min_le_min_left _ ?_
  rcases Nat.lt_or_eq_of_le (roundingScale_mono hwhole) with hlt | heq
  · -- The ranks of a scale end where those of the next one begin.
    generalize hscale : roundingScale (n * unitsInOne / d) = scale at hlt ⊢
    generalize hscale' : roundingScale (n' * unitsInOne / d) = scale' at hlt ⊢
    have hleast : divHalfEven (n * unitsInOne) (d * 2 ^ scale) ≤ 2 ^ 53 := by
      refine (divHalfEven_le_succ _ _).trans (Nat.succ_le_of_lt ?_)
      rw [← Nat.div_div_eq_div_mul, Nat.div_lt_iff_lt_mul (Nat.two_pow_pos scale), ← hscale]
      exact lt_of_roundingScale _
    have hgreatest : 2 ^ 52 ≤ divHalfEven (n' * unitsInOne) (d * 2 ^ scale') := by
      refine Nat.le_trans ?_ (div_le_divHalfEven _ _)
      rw [← Nat.div_div_eq_div_mul, Nat.le_div_iff_mul_le (Nat.two_pow_pos scale'), ← hscale']
      exact le_of_roundingScale (by omega)
    omega
  · rw [heq]
    exact Nat.add_le_add_left (divHalfEven_mono _ hunits) _

/-- The magnitude of every rank is rounded to the rank, that of infinity included. -/
theorem roundRatio_units {rank : Nat} (h : rank ≤ topRank) :
    roundRatio (rankUnits rank) unitsInOne = rank := by
  rcases Nat.lt_or_eq_of_le h with hlt | rfl
  · exact roundRatio_rankUnits unitsInOne_pos hlt rfl
  · refine roundRatio_large unitsInOne_pos (Nat.le_of_eq ?_)
    rw [rankUnits_topRank, Nat.mul_comm]

/-! ## Places -/

/-- The place that is nearest to a number of units. -/
def roundedPlace (units : Int) : Int :=
  if units < 0 then -(roundRatio units.natAbs unitsInOne : Int)
  else roundRatio units.natAbs unitsInOne

/-- **Rounding keeps the order.** -/
theorem roundedPlace_mono {u v : Int} (huv : u ≤ v) : roundedPlace u ≤ roundedPlace v := by
  have hmono : ∀ {m n : Nat}, m ≤ n → roundRatio m unitsInOne ≤ roundRatio n unitsInOne :=
    roundRatio_mono unitsInOne
  unfold roundedPlace
  by_cases hu : u < 0
  · by_cases hv : v < 0
    · have hround := @hmono v.natAbs u.natAbs (by omega)
      rw [if_pos hu, if_pos hv]
      omega
    · rw [if_pos hu, if_neg hv]
      omega
  · have hround := @hmono u.natAbs v.natAbs (by omega)
    rw [if_neg hu, if_neg (by omega)]
    omega

theorem roundedPlace_placeUnits {p : Int} (hp : p.natAbs ≤ topRank) :
    roundedPlace (placeUnits p) = p := by
  have hround := roundRatio_units hp
  unfold roundedPlace placeUnits
  by_cases hneg : p < 0
  · have hpos : rankUnits 0 < rankUnits p.natAbs := rankUnits_strictMono (by omega)
    rw [if_pos hneg, if_pos (by omega), Int.natAbs_neg, Int.natAbs_natCast, hround]
    omega
  · rw [if_neg hneg, if_neg (by omega), Int.natAbs_natCast, hround]
    omega

theorem ofRatio_eq_number (negative : Bool) (n d : Nat) :
    ∃ rank : Fin (topRank + 1), ofRatio negative n d = .number negative rank ∧
      rank.val = roundRatio n d := by
  have hrank : roundRatio n d < 0x7FF0000000000001 := Nat.lt_succ_of_le (roundRatio_le_topRank n d)
  exact ⟨⟨roundRatio n d, hrank⟩, dif_pos hrank, rfl⟩

theorem place?_ofRatio (negative : Bool) (n d : Nat) :
    (ofRatio negative n d).place? =
      some (if negative then -(roundRatio n d : Int) else roundRatio n d) := by
  obtain ⟨rank, hratio, hrank⟩ := ofRatio_eq_number negative n d
  rw [hratio, ← hrank]
  rfl

theorem isFinite_ofRatio (negative : Bool) (n d : Nat) :
    (ofRatio negative n d).isFinite = decide (roundRatio n d < topRank) := by
  obtain ⟨rank, hratio, hrank⟩ := ofRatio_eq_number negative n d
  rw [hratio, ← hrank]
  rfl

theorem place?_ofInt? {n : Int} {x : Binary64} (h : ofInt? n = some x) :
    x.place? = some (roundedPlace (n * unitsInOne)) := by
  have hunits : roundRatio n.natAbs 1 = roundRatio (n * unitsInOne).natAbs unitsInOne := by
    refine roundRatio_congr Nat.one_pos unitsInOne_pos ?_
    rw [Int.natAbs_mul, Int.natAbs_natCast, Nat.mul_one]
  have hsign : ∀ {u : Nat}, 0 < u → (n * u < 0 ↔ n < 0) := by
    intro u hu
    have hmul := Int.mul_lt_mul_right (b := n) (c := 0) (Int.natCast_pos.mpr hu)
    rwa [Int.zero_mul] at hmul
  unfold ofInt? at h
  dsimp only at h
  split at h
  · cases h
    rw [place?_ofRatio, roundedPlace, hunits]
    simp only [decide_eq_true_eq, hsign unitsInOne_pos]
  · cases h

/-! ## Infinity -/

/-- The least integer that is rounded to infinity: it lies half a step above the largest number. -/
def leastInfinite : Nat := 2 ^ 1024 - 2 ^ 970

theorem roundRatio_lt_topRank_iff {n : Nat} : roundRatio n 1 < topRank ↔ n < leastInfinite := by
  have hfirst : roundRatio leastInfinite 1 = topRank := by decide +kernel
  have hlast : roundRatio (leastInfinite - 1) 1 < topRank := by decide +kernel
  constructor
  · intro h
    by_contra hlarge
    have hmono := roundRatio_mono 1 (Nat.le_of_not_lt hlarge)
    omega
  · intro h
    exact Nat.lt_of_le_of_lt (roundRatio_mono 1 (Nat.le_sub_one_of_lt h)) hlast

/-- **The integers beyond the numbers** are those from the least infinite one on, with either
sign. -/
theorem ofInt?_eq_none_iff {n : Int} : ofInt? n = none ↔ leastInfinite ≤ n.natAbs := by
  unfold ofInt?
  simp only [isFinite_ofRatio, roundRatio_lt_topRank_iff, decide_eq_true_eq]
  split
  · rename_i hsmall
    simpa using hsmall
  · rename_i hlarge
    simpa using hlarge

/-- An integer that is not rounded to infinity is less than the first power of two beyond the finite
numbers. -/
theorem natAbs_ofInt?_lt {n : Int} {x : Binary64} (h : ofInt? n = some x) :
    n.natAbs < 2 ^ 1024 := by
  have hsmall : n.natAbs < leastInfinite := by
    by_contra hlarge
    rw [ofInt?_eq_none_iff.mpr (Nat.le_of_not_lt hlarge)] at h
    cases h
  exact Nat.lt_of_lt_of_le hsmall (Nat.sub_le _ _)

/-! ## Short integers -/

theorem rankUnits_add {scale significand : Nat} (hlow : 2 ^ 52 ≤ significand)
    (hhigh : significand < 2 ^ 53) :
    rankUnits (scale * 2 ^ 52 + significand) = significand * 2 ^ scale := by
  have hscale : rankScale (scale * 2 ^ 52 + significand) = scale := by
    rw [rankScale_eq]
    omega
  have hsignificand : rankSignificand (scale * 2 ^ 52 + significand) = significand := by
    rw [rankSignificand, hscale, Nat.pow_eq, Nat.add_sub_cancel_left]
  rw [rankUnits, hscale, hsignificand, Nat.pow_eq]

/-- A multiple of a power of two has a rank if the factor has at most 53 binary digits. -/
theorem exists_rankUnits_eq_mul {n k : Nat} (h : n ≤ 2 ^ 53) (hk : 52 ≤ k) :
    ∃ rank, rank ≤ (k + 2) * 2 ^ 52 ∧ rankUnits rank = n * 2 ^ k := by
  rcases Nat.eq_zero_or_pos n with rfl | hpos
  · exact ⟨0, Nat.zero_le _, by rw [rankUnits_zero, Nat.zero_mul]⟩
  rcases Nat.lt_or_eq_of_le h with hlt | rfl
  · -- The binary digits are moved to the left until there are 53 of them.
    obtain ⟨hfirst, hlast⟩ := (Nat.log2_eq_iff (by omega)).mp (rfl : n.log2 = n.log2)
    have hdigits : n.log2 ≤ 52 := Nat.le_of_lt_succ ((Nat.log2_lt (by omega)).mpr hlt)
    have hlow : 2 ^ 52 ≤ n * 2 ^ (52 - n.log2) := by
      calc 2 ^ 52 = 2 ^ n.log2 * 2 ^ (52 - n.log2) := by rw [← Nat.pow_add]; congr 1; omega
        _ ≤ n * 2 ^ (52 - n.log2) := Nat.mul_le_mul_right _ hfirst
    have hhigh : n * 2 ^ (52 - n.log2) < 2 ^ 53 := by
      calc n * 2 ^ (52 - n.log2) < 2 ^ (n.log2 + 1) * 2 ^ (52 - n.log2) :=
            Nat.mul_lt_mul_of_pos_right hlast (Nat.two_pow_pos _)
        _ = 2 ^ 53 := by rw [← Nat.pow_add]; congr 1; omega
    have hexponent : 52 - n.log2 + (k + n.log2 - 52) = k := by omega
    refine ⟨(k + n.log2 - 52) * 2 ^ 52 + n * 2 ^ (52 - n.log2), by omega, ?_⟩
    rw [rankUnits_add hlow hhigh, Nat.mul_assoc, ← Nat.pow_add, hexponent]
  · refine ⟨(k + 1) * 2 ^ 52 + 2 ^ 52, by omega, ?_⟩
    rw [rankUnits_add (Nat.le_refl _) (by decide), ← Nat.pow_add, ← Nat.pow_add]
    congr 1
    omega

/-- **An integer of at most 53 binary digits has a rank**, and so has the next power of two. -/
theorem exists_rankUnits_eq {n : Nat} (h : n ≤ 2 ^ 53) :
    ∃ rank, rank < topRank ∧ rankUnits rank = n * unitsInOne := by
  obtain ⟨rank, hrank, hunits⟩ := exists_rankUnits_eq_mul (k := 1074) h (by decide)
  have htop : topRank = 2047 * 2 ^ 52 := rfl
  exact ⟨rank, by omega, unitsInOne_eq ▸ hunits⟩

/-- Such an integer is not rounded. -/
theorem exists_ofRatio_eq (negative : Bool) {n : Nat} (h : n ≤ 2 ^ 53) :
    ∃ rank : Fin (topRank + 1), ofRatio negative n 1 = .number negative rank ∧
      rank.val < topRank ∧ rankUnits rank.val = n * unitsInOne := by
  obtain ⟨rank, hrank, hunits⟩ := exists_rankUnits_eq h
  have hround : roundRatio n 1 = rank :=
    roundRatio_rankUnits Nat.one_pos hrank (by rw [hunits, Nat.mul_one])
  have hlt : rank < 0x7FF0000000000001 := Nat.lt_succ_of_lt hrank
  refine ⟨⟨rank, hlt⟩, ?_, hrank, hunits⟩
  rw [ofRatio, hround]
  exact dif_pos hlt

end Binary64

namespace Value.Numeric

open Binary64

/-- The binary64 number nearest to a number, unless that is an integer beyond all of them. -/
def round? : Numeric → Option Binary64
  | .int n => ofInt? n
  | .float x => some x

/-- The units of a number, where an infinite one counts as the power of two beyond all others. -/
def units : Numeric → Int
  | .int n => n * unitsInOne
  | .float x => placeUnits (x.place?.getD 0)

variable {x y : Numeric} {a b : Binary64}

/-- A number that is not beyond the binary64 numbers is finite or one of the two infinities. -/
theorem level_units (hx : x.isNaN = false) (ha : x.round? = some a) :
    (x.level = toLex (0, x.units) ∧ x.units.natAbs < rankUnits topRank) ∨
      (x.level = toLex (1, 0) ∧ x.units = rankUnits topRank) ∨
      (x.level = toLex (-1, 0) ∧ x.units = -rankUnits topRank) := by
  cases x with
  | int n =>
    refine .inl ⟨rfl, ?_⟩
    rw [units, Int.natAbs_mul, Int.natAbs_natCast, rankUnits_topRank]
    exact Nat.mul_lt_mul_of_pos_right (natAbs_ofInt?_lt ha) unitsInOne_pos
  | float x =>
    cases x with
    | nan => cases hx
    | number negative rank =>
      have hunits : units (.float (.number negative rank)) =
          placeUnits (if negative then -(rank.val : Int) else rank.val) := rfl
      by_cases hfinite : rank.val < topRank
      · refine .inl ⟨?_, ?_⟩
        · rw [level_finite negative hfinite, hunits]
        · have hless := rankUnits_strictMono hfinite
          rw [hunits, placeUnits_signed]
          cases negative with
          | false => exact hless
          | true =>
            rw [if_pos rfl, Int.natAbs_neg]
            exact hless
      · have hrank : rank.val = topRank := Nat.le_antisymm (Nat.le_of_lt_succ rank.isLt) (by omega)
        rw [level_infinite negative hfinite, hunits, placeUnits_signed, hrank]
        cases negative with
        | false => exact .inr (.inl ⟨rfl, rfl⟩)
        | true => exact .inr (.inr ⟨rfl, rfl⟩)

theorem units_mono (hx : x.isNaN = false) (hy : y.isNaN = false) (ha : x.round? = some a)
    (hb : y.round? = some b) (h : x.level ≤ y.level) : x.units ≤ y.units := by
  rcases level_units hx ha with ⟨hlevel, hunits⟩ | ⟨hlevel, hunits⟩ | ⟨hlevel, hunits⟩ <;>
    rcases level_units hy hb with ⟨hlevel', hunits'⟩ | ⟨hlevel', hunits'⟩ | ⟨hlevel', hunits'⟩ <;>
    rw [hlevel, hlevel', Prod.Lex.toLex_le_toLex] at h <;>
    dsimp only at h <;>
    omega

theorem place?_round (hx : x.isNaN = false) (ha : x.round? = some a) :
    a.place? = some (roundedPlace x.units) := by
  cases x with
  | int n => exact place?_ofInt? ha
  | float x =>
    cases x with
    | nan => cases hx
    | number negative rank =>
      cases ha
      have hrank := Nat.le_of_lt_succ rank.isLt
      show some _ = some (roundedPlace (placeUnits _))
      congr 1
      refine (roundedPlace_placeUnits ?_).symm
      cases negative with
      | false => exact hrank
      | true => exact (Int.natAbs_neg _).trans_le hrank

/-- **Rounding two numbers can make them equal, and otherwise keeps their order.** -/
theorem order?_round (hx : x.isNaN = false) (hy : y.isNaN = false) (ha : x.round? = some a)
    (hb : y.round? = some b) :
    a.order? b = some (if a.equals b then .eq else compare x.level y.level) := by
  have horder : a.order? b = some (compare (roundedPlace x.units) (roundedPlace y.units)) := by
    unfold Binary64.order?
    rw [place?_round hx ha, place?_round hy hb]
    rfl
  have hequals : a.equals b = true ↔ roundedPlace x.units = roundedPlace y.units := by
    unfold Binary64.equals
    rw [horder, beq_iff_eq, Option.some.injEq, compare_eq_iff_eq]
  rw [horder]
  congr 1
  split
  · rename_i hsame
    exact compare_eq_iff_eq.mpr (hequals.mp hsame)
  · rename_i hdiffer
    have hne : roundedPlace x.units ≠ roundedPlace y.units := fun heq => hdiffer (hequals.mpr heq)
    rcases lt_trichotomy x.level y.level with hlt | heq | hgt
    · have hle := roundedPlace_mono (units_mono hx hy ha hb hlt.le)
      rw [compare_lt_iff_lt.mpr hlt, compare_lt_iff_lt.mpr (lt_of_le_of_ne hle hne)]
    · have hle := roundedPlace_mono (units_mono hx hy ha hb heq.le)
      have hge := roundedPlace_mono (units_mono hy hx hb ha heq.ge)
      exact absurd (le_antisymm hle hge) hne
    · have hle := roundedPlace_mono (units_mono hy hx hb ha hgt.le)
      rw [compare_gt_iff_gt.mpr hgt, compare_gt_iff_gt.mpr (lt_of_le_of_ne hle hne.symm)]

/-- A number that rounding does not change: a binary64 number, or an integer of at most 53 binary
digits. -/
def IsExact : Numeric → Prop
  | .int n => n.natAbs ≤ 2 ^ 53
  | .float _ => True

/-- **A short integer keeps its level.** -/
theorem level_ofRatio {n : Int} (h : n.natAbs ≤ 2 ^ 53) :
    level (.float (ofRatio (n < 0) n.natAbs 1)) = level (.int n) := by
  obtain ⟨rank, hratio, hrank, hunits⟩ := exists_ofRatio_eq (n < 0) h
  rw [hratio, level_finite _ hrank, placeUnits_signed, hunits, level_int, Int.natCast_mul]
  congr 2
  by_cases hneg : n < 0
  · rw [if_pos (decide_eq_true hneg), ← Int.neg_mul]
    congr 1
    omega
  · rw [if_neg (by rwa [decide_eq_true_eq])]
    congr 1
    omega

theorem level_round (hexact : x.IsExact) : ∃ a, x.round? = some a ∧ level (.float a) = x.level := by
  cases x with
  | float x => exact ⟨x, rfl, rfl⟩
  | int n =>
    obtain ⟨rank, hratio, hrank, -⟩ := exists_ofRatio_eq (n < 0) hexact
    have hfinite : (ofRatio (n < 0) n.natAbs 1).isFinite = true := by
      rw [hratio]
      exact decide_eq_true hrank
    exact ⟨_, if_pos hfinite, level_ofRatio hexact⟩

end Value.Numeric

end Winnow

import Winnow.Proofs.Calendar.TimeLine

/-!
# The milliseconds that have a moment

A number of milliseconds is divided into seconds, whose fraction is rounded to microseconds.
Neither rounding crosses an end of the calendar: a number has a moment exactly if it lies, as it is,
between the first moment of the calendar and the end of it.

* `Date.exists_ofDayNumber?_iff`, `Moment.exists_ofEpochMicros?_iff` : the days and the microseconds
  in the calendar;
* `Binary64.unitMicros_mono` : more seconds have no fewer microseconds;
* `Binary64.exists_moment_iff` : the numbers of seconds with a moment, by their ranks;
* `Binary64.exists_intMoment_iff`, `Binary64.exists_epochMoment?_iff` : the integers and the
  binary64 numbers of milliseconds with a moment.
-/

namespace Winnow

/-- What a monotone function takes up to a bound ends where it passes the bound. -/
theorem le_iff_of_monotone {f : Nat → Nat} (hf : Monotone f) {last bound : Nat}
    (hlast : f last ≤ bound) (hnext : bound < f (last + 1)) {n : Nat} : f n ≤ bound ↔ n ≤ last := by
  constructor
  · intro h
    by_contra hlarge
    have hmono : f (last + 1) ≤ f n := hf (by omega)
    omega
  · intro h
    exact (hf h).trans hlast

/-! ## The calendar -/

theorem Date.exists_ofDayNumber?_iff {n : Int} :
    (∃ d, ofDayNumber? n = some d) ↔ 1 ≤ n ∧ n ≤ last.dayNumber := by
  constructor
  · rintro ⟨d, hd⟩
    have hnumber := dayNumber_of_ofDayNumber? hd
    obtain ⟨hfirst, hlast⟩ := d.dayNumber_bounds
    omega
  · rintro ⟨hfirst, hlast⟩
    obtain ⟨m, rfl⟩ : ∃ m : Nat, n = m := ⟨n.toNat, by omega⟩
    rw [dayNumber_last] at hlast
    obtain ⟨d, hd, -⟩ := exists_of_dayNumber (n := m) (by omega) (by omega)
    exact ⟨d, hd⟩

namespace Moment

/-- The milliseconds from the first moment of the calendar to 1970. -/
def millisBefore : Nat := 62135596800000

/-- The milliseconds from 1970 to the end of the calendar. -/
def millisAfter : Nat := 253402300800000

theorem exists_ofEpochMicros?_iff {micros : Int} :
    (∃ m, ofEpochMicros? micros = some m) ↔
      -(millisBefore * 1000 : Int) ≤ micros ∧ micros < millisAfter * 1000 := by
  have hlast : Date.last.dayNumber = 3652059 := by decide
  have hday : (∃ m, ofEpochMicros? micros = some m) ↔
      ∃ d, Date.ofDayNumber? ((epoch + micros) / microsPerDay) = some d := by
    simp [ofEpochMicros?, ofInstant?, Option.bind_eq_some_iff]
  rw [hday, Date.exists_ofDayNumber?_iff, hlast, epoch, microsPerDay, millisBefore, millisAfter]
  omega

end Moment

namespace Binary64

open Moment

/-! ## Seconds -/

/-- The microseconds of so many units of a second, the fraction of the second rounded twice. -/
def unitMicros (units : Nat) : Nat :=
  units / unitsInOne * 1000000 +
    divHalfEven (rankUnits (roundRatio (units % unitsInOne * 1000000) unitsInOne)) unitsInOne

/-- A fraction of a second has no more microseconds than a second. -/
theorem fractionMicros_le {units : Nat} (h : units < unitsInOne) :
    divHalfEven (rankUnits (roundRatio (units * 1000000) unitsInOne)) unitsInOne ≤ 1000000 := by
  obtain ⟨rank, hrank, hunits⟩ := exists_rankUnits_eq (n := 1000000) (by decide)
  have hsecond : units * 1000000 ≤ rankUnits rank := by omega
  have hround : roundRatio (units * 1000000) unitsInOne ≤ rank :=
    (roundRatio_mono unitsInOne hsecond).trans_eq (roundRatio_units (Nat.le_of_lt hrank))
  calc divHalfEven (rankUnits (roundRatio (units * 1000000) unitsInOne)) unitsInOne
      ≤ divHalfEven (rankUnits rank) unitsInOne :=
        divHalfEven_mono _ (rankUnits_strictMono.monotone hround)
    _ = divHalfEven (1000000 * unitsInOne) unitsInOne := by rw [hunits]
    _ = 1000000 := divHalfEven_mul_self _ unitsInOne_pos

/-- **More seconds have no fewer microseconds.** -/
theorem unitMicros_mono : Monotone unitMicros := by
  intro u v huv
  unfold unitMicros
  rcases Nat.lt_or_eq_of_le (Nat.div_le_div_right (c := unitsInOne) huv) with hlt | heq
  · have hfraction := fractionMicros_le (Nat.mod_lt u unitsInOne_pos)
    omega
  · have hremainder : u % unitsInOne ≤ v % unitsInOne := by
      have hu := Nat.div_add_mod u unitsInOne
      have hv := Nat.div_add_mod v unitsInOne
      rw [heq] at hu
      omega
    rw [heq]
    exact Nat.add_le_add_left (divHalfEven_mono _ (rankUnits_strictMono.monotone
      (roundRatio_mono _ (Nat.mul_le_mul_right _ hremainder)))) _

/-- The microseconds of a rank of seconds. -/
def rankMicros (rank : Nat) : Nat := unitMicros (rankUnits rank)

theorem rankMicros_mono : Monotone rankMicros :=
  unitMicros_mono.comp rankUnits_strictMono.monotone

theorem secondsToMicros?_number (negative : Bool) {rank : Fin (topRank + 1)}
    (hfinite : rank.val < topRank) : secondsToMicros? (.number negative rank) =
      some (if negative then -(rankMicros rank.val : Int) else rankMicros rank.val) := by
  have hunits : units? (.number negative rank) =
      some (if negative then -(rankUnits rank.val : Int) else rankUnits rank.val) := if_pos hfinite
  rw [secondsToMicros?, hunits, rankMicros, unitMicros]
  generalize rankUnits rank.val = units
  have hmul : units / unitsInOne * unitsInOne + units % unitsInOne = units := by
    rw [Nat.mul_comm]
    exact Nat.div_add_mod units unitsInOne
  have hzero : units = 0 →
      divHalfEven (rankUnits (roundRatio (units % unitsInOne * 1000000) unitsInOne)) unitsInOne =
        0 := by
    rintro rfl
    decide +kernel
  generalize hmicros :
    divHalfEven (rankUnits (roundRatio (units % unitsInOne * 1000000) unitsInOne)) unitsInOne =
      micros at hzero
  cases negative with
  | false =>
    have hwhole : (units : Int).tdiv unitsInOne = (units / unitsInOne : Nat) := rfl
    have hfraction : ((units : Int) - (units / unitsInOne : Nat) * unitsInOne).natAbs =
        units % unitsInOne := by
      rw [← Int.natCast_mul]
      omega
    have hsign : ¬ ((units : Int) < 0) := by omega
    simp only [Bool.false_eq_true, if_false, Option.bind_eq_bind, Option.bind_some, hwhole,
      hfraction, hmicros, hsign, Int.natCast_add, Int.natCast_mul]
    rfl
  | true =>
    have hwhole : (-(units : Int)).tdiv unitsInOne = -(units / unitsInOne : Nat) := by
      rw [Int.neg_tdiv]
      rfl
    have hfraction : (-(units : Int) - -(units / unitsInOne : Nat) * unitsInOne).natAbs =
        units % unitsInOne := by
      rw [Int.neg_mul, ← Int.natCast_mul]
      omega
    simp only [if_true, Option.bind_eq_bind, Option.bind_some, hwhole, hfraction, hmicros,
      Int.natCast_add, Int.natCast_mul]
    refine congrArg some ?_
    split
    · omega
    · omega

theorem secondsToMicros?_infinite (negative : Bool) {rank : Fin (topRank + 1)}
    (htop : ¬ rank.val < topRank) : secondsToMicros? (.number negative rank) = none := by
  have hunits : units? (.number negative rank) = none := if_neg htop
  rw [secondsToMicros?, hunits]
  rfl

/-- The rank of the seconds from the first moment of the calendar to 1970. -/
def rankBefore : Nat := 4768449043074383872

/-- The rank of the last seconds before the end of the calendar. -/
def rankAfter : Nat := 4777615491977969663

/-- **The numbers of seconds with a moment** are those between the ends of the calendar. -/
theorem exists_moment_iff (negative : Bool) (rank : Fin (topRank + 1)) :
    (∃ m, (secondsToMicros? (.number negative rank)).bind ofEpochMicros? = some m) ↔
      rank.val ≤ if negative then rankBefore else rankAfter := by
  have hbefore : rankMicros rank.val ≤ millisBefore * 1000 ↔ rank.val ≤ rankBefore :=
    le_iff_of_monotone rankMicros_mono (by decide +kernel) (by decide +kernel)
  have hafter : rankMicros rank.val ≤ millisAfter * 1000 - 1 ↔ rank.val ≤ rankAfter :=
    le_iff_of_monotone rankMicros_mono (by decide +kernel) (by decide +kernel)
  have hends : rankBefore < topRank ∧ rankAfter < topRank := by decide
  by_cases hfinite : rank.val < topRank
  · rw [secondsToMicros?_number negative hfinite, Option.bind_some, exists_ofEpochMicros?_iff]
    have hpositive : 0 < millisAfter * 1000 := by decide
    cases negative with
    | false =>
      simp only [Bool.false_eq_true, if_false, ← hafter]
      omega
    | true =>
      simp only [if_true, ← hbefore]
      omega
  · rw [secondsToMicros?_infinite negative hfinite]
    cases negative <;> simp <;> omega

/-! ## Milliseconds -/

theorem exists_moment_ofRatio_iff (negative : Bool) (n d : Nat) :
    (∃ m, (secondsToMicros? (ofRatio negative n d)).bind ofEpochMicros? = some m) ↔
      roundRatio n d ≤ if negative then rankBefore else rankAfter := by
  obtain ⟨rank, hratio, hrank⟩ := ofRatio_eq_number negative n d
  rw [hratio, exists_moment_iff, hrank]

/-- **The integers of milliseconds with a moment** are those between the ends of the calendar. -/
theorem exists_intMoment_iff {n : Int} :
    (∃ m, (secondsToMicros? (ofRatio (n < 0) n.natAbs 1000)).bind ofEpochMicros? = some m) ↔
      -(millisBefore : Int) ≤ n ∧ n < millisAfter := by
  have hmono : Monotone fun n => roundRatio n 1000 := fun _ _ h => roundRatio_mono 1000 h
  have hbefore : roundRatio n.natAbs 1000 ≤ rankBefore ↔ n.natAbs ≤ millisBefore :=
    le_iff_of_monotone hmono (by decide +kernel) (by decide +kernel)
  have hafter : roundRatio n.natAbs 1000 ≤ rankAfter ↔ n.natAbs ≤ millisAfter - 1 :=
    le_iff_of_monotone hmono (by decide +kernel) (by decide +kernel)
  have hpositive : 0 < millisAfter := by decide
  rw [exists_moment_ofRatio_iff]
  by_cases hn : n < 0
  · simp only [hn, decide_true, if_true, hbefore]
    omega
  · simp only [hn, decide_false, Bool.false_eq_true, if_false, hafter]
    omega

/-- The rank of the seconds of a rank of milliseconds. -/
def secondsRank (rank : Nat) : Nat := roundRatio (rankUnits rank * 1) (unitsInOne * 1000)

theorem secondsRank_mono : Monotone secondsRank := fun _ _ h =>
  roundRatio_mono _ (Nat.mul_le_mul_right 1 (rankUnits_strictMono.monotone h))

-- In both lemmas one rank of milliseconds is the last that lies inside, before and after rounding.

theorem secondsRank_le_rankBefore_iff (rank : Nat) :
    secondsRank rank ≤ rankBefore ↔ rankUnits rank ≤ millisBefore * unitsInOne := by
  have hrounded : secondsRank rank ≤ rankBefore ↔ rank ≤ 4813294158794719232 :=
    le_iff_of_monotone secondsRank_mono (by decide +kernel) (by decide +kernel)
  have hexact : rankUnits rank ≤ millisBefore * unitsInOne ↔ rank ≤ 4813294158794719232 :=
    le_iff_of_monotone rankUnits_strictMono.monotone (by decide +kernel) (by decide +kernel)
  rw [hrounded, hexact]

theorem secondsRank_le_rankAfter_iff (rank : Nat) :
    secondsRank rank ≤ rankAfter ↔ rankUnits rank < millisAfter * unitsInOne := by
  have hpositive : 0 < millisAfter * unitsInOne := by decide +kernel
  have hrounded : secondsRank rank ≤ rankAfter ↔ rank ≤ 4822456875284660223 :=
    le_iff_of_monotone secondsRank_mono (by decide +kernel) (by decide +kernel)
  have hexact : rankUnits rank ≤ millisAfter * unitsInOne - 1 ↔ rank ≤ 4822456875284660223 :=
    le_iff_of_monotone rankUnits_strictMono.monotone (by decide +kernel) (by decide +kernel)
  rw [hrounded, ← hexact, Nat.le_sub_one_iff_lt hpositive]

/-- **The binary64 numbers of milliseconds with a moment** are those between the ends of the
calendar. -/
theorem exists_epochMoment?_iff (x : Binary64) :
    (∃ m, x.epochMoment? = some m) ↔
      ∃ u, x.units? = some u ∧ -(millisBefore * unitsInOne : Int) ≤ u ∧
        u < millisAfter * unitsInOne := by
  cases x with
  | nan => exact ⟨nofun, nofun⟩
  | number negative rank =>
    show (∃ m, (secondsToMicros? (scale (.number negative rank) 1 1000)).bind ofEpochMicros? =
      some m) ↔ _
    by_cases hfinite : rank.val < topRank
    · have hscale : scale (.number negative rank) 1 1000 =
          ofRatio negative (rankUnits rank.val * 1) (unitsInOne * 1000) := if_pos hfinite
      have hunits : units? (.number negative rank) =
          some (if negative then -(rankUnits rank.val : Int) else rankUnits rank.val) :=
        if_pos hfinite
      have hbefore := secondsRank_le_rankBefore_iff rank.val
      have hafter := secondsRank_le_rankAfter_iff rank.val
      have hpositive : 0 < millisAfter * unitsInOne := by decide +kernel
      rw [hscale, hunits, exists_moment_ofRatio_iff, ← secondsRank]
      simp only [Option.some.injEq, exists_eq_left']
      cases negative with
      | false =>
        simp only [Bool.false_eq_true, if_false, hafter]
        omega
      | true =>
        simp only [if_true, hbefore]
        omega
    · have hscale : scale (.number negative rank) 1 1000 = .number negative rank := if_neg hfinite
      have hunits : units? (.number negative rank) = none := if_neg hfinite
      rw [hscale, hunits, secondsToMicros?_infinite negative hfinite]
      simp only [Option.bind_none, reduceCtorEq, false_and, exists_false]

end Binary64

end Winnow

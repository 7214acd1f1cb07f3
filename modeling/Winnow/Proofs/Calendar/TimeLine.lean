import Winnow.Proofs.Binary64.Monotone
import Winnow.Proofs.Calendar.DayNumber
import Winnow.Proofs.Outcome
import Winnow.Proofs.Value.Order

/-!
# The time line

The days of the calendar are numbered without gaps, and a moment that is moved to UTC keeps its
instant.  The milliseconds of an instant of whole seconds are exact, so that they compare as the
instants do.

* `Date.dayNumber_of_ofDayNumber?`, `Date.exists_of_dayNumber` : each number in the calendar is that
  of one day;
* `Date.exists_next` : every day but the last is followed by another one;
* `Moment.of_toUtc` : the same instant in UTC;
* `Moment.order?_epochMillisOfInstant` : milliseconds compare as the instants of whole seconds.
-/

namespace Winnow

/-! ## Days -/

/-- What lies behind the first of ascending marks lies between two of them. -/
theorem exists_between {f : Nat → Nat} (hf : ∀ k, 1 ≤ k → f k < f (k + 1)) {n : Nat}
    (h : f 1 < n) : ∃ k, 1 ≤ k ∧ f k < n ∧ n ≤ f (k + 1) := by
  induction n with
  | zero => cases h
  | succ n ih =>
    rcases Nat.lt_or_eq_of_le (Nat.le_of_lt_succ h) with hlt | rfl
    · obtain ⟨k, hk, hlow, hhigh⟩ := ih hlt
      rcases Nat.lt_or_eq_of_le hhigh with hinside | rfl
      · exact ⟨k, hk, Nat.lt_succ_of_lt hlow, hinside⟩
      · exact ⟨k + 1, by omega, Nat.lt_succ_self _, hf (k + 1) (by omega)⟩
    · exact ⟨1, Nat.le_refl _, Nat.lt_succ_self _, hf 1 (Nat.le_refl _)⟩

theorem daysInMonth_pos (year month : Nat) : 0 < daysInMonth year month := by
  unfold daysInMonth
  split
  · split <;> decide
  all_goals decide

theorem daysBeforeYear_mono : Monotone daysBeforeYear := by
  refine monotone_nat_of_le_succ fun year => ?_
  rcases Nat.eq_zero_or_pos year with rfl | hyear
  · exact Nat.le_refl _
  · rw [daysBeforeYear_succ hyear]
    omega

namespace Date

/-- **Every day from the first on has a year, a month and a day of the month.** -/
theorem exists_parts {n : Nat} (hn : 1 ≤ n) :
    ∃ year month day, 1 ≤ year ∧ 1 ≤ month ∧ month ≤ 12 ∧ 1 ≤ day ∧ day ≤ daysInMonth year month ∧
      n = daysBeforeYear year + daysBeforeMonth year month + day ∧
      ofDayNumber? n = of? year month day := by
  have hyears (year : Nat) (hyear : 1 ≤ year) :
      daysBeforeYear year < daysBeforeYear (year + 1) := by
    rw [daysBeforeYear_succ hyear]
    omega
  obtain ⟨year, hyear, hlow, hhigh⟩ := exists_between hyears (n := n) hn
  have hmonths (month : Nat) (hmonth : 1 ≤ month) :
      daysBeforeMonth year month < daysBeforeMonth year (month + 1) := by
    have hpos := daysInMonth_pos year month
    rw [daysBeforeMonth_succ year hmonth]
    omega
  have hfirst : daysBeforeMonth year 1 = 0 := rfl
  obtain ⟨month, hmonth, hlow', hhigh'⟩ :=
    exists_between hmonths (n := n - daysBeforeYear year) (by omega)
  have hlast : month ≤ 12 := by
    by_contra hlate
    have hmono := daysBeforeMonth_mono year (show 13 ≤ month by omega)
    rw [daysBeforeMonth_thirteen] at hmono
    rw [daysBeforeYear_succ hyear] at hhigh
    omega
  have hyearOf : yearOfDay n = year := yearOfDay_of_bounds hyear hlow hhigh
  have hmonthOf : monthOfDay year (n - daysBeforeYear year) = month :=
    monthOfDay_of_bounds ⟨hmonth, hlast⟩ hlow' hhigh'
  rw [daysBeforeMonth_succ year hmonth] at hhigh'
  refine ⟨year, month, n - daysBeforeYear year - daysBeforeMonth year month, hyear, hmonth, hlast,
    by omega, by omega, by omega, ?_⟩
  have hpositive : ¬ ((n : Int) < 1) := by omega
  simp only [ofDayNumber?, hpositive, if_false, Int.toNat_natCast, hyearOf, hmonthOf]

/-- **The day that is found for a number has this number.** -/
theorem dayNumber_of_ofDayNumber? {n : Int} {d : Date} (h : ofDayNumber? n = some d) :
    (d.dayNumber : Int) = n := by
  have hpositive : 1 ≤ n := by
    by_contra hn
    unfold ofDayNumber? at h
    rw [if_pos (by omega)] at h
    cases h
  obtain ⟨m, rfl⟩ : ∃ m : Nat, n = m := ⟨n.toNat, by omega⟩
  obtain ⟨year, month, day, -, -, -, -, -, hn, hfound⟩ := exists_parts (n := m) (by omega)
  rw [hfound, of?] at h
  split at h
  · cases h
    rw [hn]
    rfl
  · cases h

/-- **Every number up to that of the last day is that of a day.** -/
theorem exists_of_dayNumber {n : Nat} (hn : 1 ≤ n) (hlast : n ≤ daysBeforeYear 10000) :
    ∃ d, ofDayNumber? n = some d ∧ d.dayNumber = n := by
  obtain ⟨year, month, day, hyear, hmonth, hmonth', hday, hday', hparts, hfound⟩ := exists_parts hn
  have hyear' : year ≤ 9999 := by
    by_contra hlate
    have hmono := daysBeforeYear_mono (show 10000 ≤ year by omega)
    omega
  have hvalid : isDate year month day = true := by
    simp only [isDate, Bool.and_eq_true, decide_eq_true_eq]
    omega
  exact ⟨⟨year, month, day, hvalid⟩, hfound.trans (dif_pos hvalid), hparts.symm⟩

/-- The last day of the calendar. -/
def last : Date := ⟨9999, 12, 31, by decide⟩

theorem dayNumber_last : last.dayNumber = daysBeforeYear 10000 := by decide

theorem dayNumber_injective {d e : Date} (h : d.dayNumber = e.dayNumber) : d = e := by
  have hd := ofDayNumber?_dayNumber d
  rw [h, ofDayNumber?_dayNumber e] at hd
  exact (Option.some.inj hd).symm

theorem dayNumber_bounds (d : Date) : 1 ≤ d.dayNumber ∧ d.dayNumber ≤ last.dayNumber := by
  have hvalid := d.valid
  simp only [isDate, Bool.and_eq_true, decide_eq_true_eq] at hvalid
  obtain ⟨⟨⟨⟨⟨hyear, hyear'⟩, hmonth⟩, hmonth'⟩, hday⟩, hday'⟩ := hvalid
  have hsucc := daysBeforeMonth_succ d.year hmonth
  have hmonths := daysBeforeMonth_mono d.year (show d.month + 1 ≤ 13 by omega)
  have hyears := daysBeforeYear_mono (show d.year + 1 ≤ 10000 by omega)
  rw [daysBeforeMonth_thirteen] at hmonths
  rw [daysBeforeYear_succ hyear] at hyears
  rw [dayNumber_last, dayNumber]
  omega

/-- **Every day but the last is followed by another one.** -/
theorem exists_next {d : Date} (h : d ≠ last) :
    ∃ next, d.addDays? 1 = some next ∧ next.dayNumber = d.dayNumber + 1 := by
  obtain ⟨hfirst, hlast⟩ := d.dayNumber_bounds
  have hne : d.dayNumber ≠ last.dayNumber := fun heq => h (dayNumber_injective heq)
  rw [dayNumber_last] at hlast hne
  exact exists_of_dayNumber (n := d.dayNumber + 1) (by omega) (by omega)

end Date

/-! ## Moments in UTC -/

theorem TimeOfDay.micros_ofMicros {n : Nat} (hn : n < microsPerDay) : (ofMicros n).micros = n := by
  rw [microsPerDay] at hn
  simp only [micros, ofMicros]
  omega

namespace Moment

theorem instant_eq_ok_iff {m : Moment} {instant : Int} :
    m.instant = .ok instant ↔ offsetInRange (m.offset.getD 0) = true ∧ instant = m.instantOf := by
  unfold Moment.instant usableOffset instantOf
  dsimp only
  split
  · rename_i hrange
    simp [hrange, bind, Except.bind, pure, Except.pure, eq_comm]
  · rename_i hrange
    simp [hrange, bind, Except.bind]

/-- **A moment that is moved to UTC keeps its instant.** -/
theorem of_toUtc {m u : Moment} (h : m.toUtc = .ok u) :
    offsetInRange (m.offset.getD 0) = true ∧ u.instantOf = m.instantOf ∧ u.offset = some 0 := by
  obtain ⟨instant, hinstant, h⟩ := Outcome.of_bind_ok h
  obtain ⟨hrange, rfl⟩ := instant_eq_ok_iff.mp hinstant
  refine ⟨hrange, ?_⟩
  split at h
  · rename_i found hfound
    cases h
    obtain ⟨date, hdate, hfound⟩ := Option.bind_eq_some_iff.mp hfound
    cases hfound
    have hday := Date.dayNumber_of_ofDayNumber? hdate
    have hmicros : (m.instantOf % microsPerDay).toNat < microsPerDay := by
      rw [microsPerDay]
      omega
    refine ⟨?_, rfl⟩
    rw [instantOf, written, TimeOfDay.micros_ofMicros hmicros, hday]
    simp only [Option.getD_some, microsPerDay]
    omega
  · cases h

end Moment

/-! ## Milliseconds -/

namespace Binary64

theorem ofRatio_mul_self (negative : Bool) (n : Nat) {d : Nat} (hd : 0 < d) :
    ofRatio negative (n * d) d = ofRatio negative n 1 := by
  rw [ofRatio, ofRatio, roundRatio_congr hd Nat.one_pos (Nat.mul_one (n * d))]

/-- A multiple of a short integer is rounded once. -/
theorem scale_ofRatio (negative : Bool) {n : Nat} (h : n ≤ 2 ^ 53) (k : Nat) :
    (ofRatio negative n 1).scale k 1 = ofRatio negative (n * k) 1 := by
  obtain ⟨rank, hratio, hfinite, hunits⟩ := exists_ofRatio_eq negative h
  rw [hratio]
  refine (if_pos hfinite).trans ?_
  rw [hunits, Nat.mul_one, Nat.mul_right_comm, ofRatio_mul_self negative _ unitsInOne_pos]

end Binary64

namespace Moment

open Binary64 Value

/-- The milliseconds of whole seconds are not rounded. -/
theorem epochMillisOfInstant_eq {seconds : Int} (h : seconds.natAbs ≤ 2 ^ 53) :
    epochMillisOfInstant (epoch + seconds * 1000000) =
      ofRatio (seconds * 1000 < 0) (seconds * 1000).natAbs 1 := by
  have hmicros : epoch + seconds * 1000000 - epoch = seconds * 1000000 := by omega
  have hsign : seconds * 1000000 < 0 ↔ seconds < 0 := by omega
  have hsign' : seconds * 1000 < 0 ↔ seconds < 0 := by omega
  have habs : (seconds * 1000000).natAbs = seconds.natAbs * 1000000 := by omega
  have habs' : (seconds * 1000).natAbs = seconds.natAbs * 1000 := by omega
  unfold epochMillisOfInstant
  simp only [hmicros, hsign, hsign', habs, habs']
  rw [ofRatio_mul_self _ _ (by decide), scale_ofRatio _ h]

/-- An instant of whole seconds between the first and the last moment of the calendar. -/
def IsSecond (instant : Int) : Prop :=
  instant % 1000000 = 0 ∧ 0 ≤ instant ∧ instant < (Date.last.dayNumber + 1) * microsPerDay

theorem level_epochMillisOfInstant {instant : Int} (h : IsSecond instant) :
    Numeric.level (.float (epochMillisOfInstant instant)) =
      Numeric.level (.int ((instant - epoch) / 1000)) := by
  obtain ⟨hwhole, hfirst, hlast⟩ := h
  have hepoch : epoch = 62135683200000000 := rfl
  have hbound : ((Date.last.dayNumber : Int) + 1) * microsPerDay = 315537984000000000 := by decide
  obtain ⟨seconds, hseconds⟩ : ∃ seconds, instant = epoch + seconds * 1000000 :=
    ⟨(instant - epoch) / 1000000, by omega⟩
  have hmillis : (instant - epoch) / 1000 = seconds * 1000 := by omega
  rw [hmillis, hseconds, epochMillisOfInstant_eq (by omega), Numeric.level_ofRatio (by omega)]

/-- **Milliseconds compare as the instants**, if these are whole seconds. -/
theorem order?_epochMillisOfInstant {i j : Int} (hi : IsSecond i) (hj : IsSecond j) :
    (epochMillisOfInstant i).order? (epochMillisOfInstant j) = some (compare i j) := by
  rw [Numeric.order?_float (isNaN_epochMillisOfInstant _) (isNaN_epochMillisOfInstant _),
    level_epochMillisOfInstant hi, level_epochMillisOfInstant hj, Numeric.level_int,
    Numeric.level_int, Numeric.compare_toLex, compare_mul_unitsInOne]
  have hepoch : epoch = 62135683200000000 := rfl
  obtain ⟨hi, -⟩ := hi
  obtain ⟨hj, -⟩ := hj
  have hmillis : compare ((i - epoch) / 1000) ((j - epoch) / 1000) = compare i j := by
    rcases lt_trichotomy i j with hlt | rfl | hgt
    · rw [compare_lt_iff_lt.mpr hlt, compare_lt_iff_lt.mpr (by omega)]
    · rw [compare_eq_iff_eq.mpr rfl, compare_eq_iff_eq.mpr rfl]
    · rw [compare_gt_iff_gt.mpr hgt, compare_gt_iff_gt.mpr (by omega)]
  rw [hmillis]
  rfl

end Moment

end Winnow

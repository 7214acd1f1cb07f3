import Mathlib.Order.Monotone.Basic
import Winnow.Proofs.Calendar.IsoDate
import Winnow.Query

/-!
# Day numbers are read back

A date is found again from its day number, so every moment of UTC is found again from its place on
the time line.

* `Date.yearOfDay_of_bounds`, `Date.monthOfDay_of_bounds` : the year and the month of a day;
* `Date.ofDayNumber?_dayNumber` : the date of the day number of a date;
* `Moment.toUtc_of_utc` : a moment of UTC has its own date and time of day in UTC;
* `Query.timestamp_of_utc` : it can be written as a timestamp.
-/

namespace Winnow

/-! ## Years -/

theorem div_pred {year : Nat} (hyear : 1 ≤ year) (k : Nat) :
    year / k = (year - 1) / k + if year % k = 0 then 1 else 0 := by
  obtain ⟨p, rfl⟩ : ∃ p, year = p + 1 := ⟨year - 1, by omega⟩
  rw [Nat.succ_div, Nat.add_sub_cancel]
  simp only [Nat.dvd_iff_mod_eq_zero]

/-- A year has 365 days, and one more if it is a leap year. -/
theorem daysBeforeYear_succ {year : Nat} (hyear : 1 ≤ year) :
    daysBeforeYear (year + 1) = daysBeforeYear year + 337 + daysInMonth year 2 := by
  have h4 := div_pred hyear 4
  have h100 := div_pred hyear 100
  have h400 := div_pred hyear 400
  have hfewer : (year - 1) / 100 ≤ (year - 1) / 4 := Nat.div_le_div_left (by decide) (by decide)
  have h100of400 : year % 400 = 0 → year % 100 = 0 := by omega
  have h4of100 : year % 100 = 0 → year % 4 = 0 := by omega
  simp only [daysBeforeYear, Nat.add_sub_cancel, daysInMonth, isLeapYear, h4, h100, h400]
  generalize (year - 1) / 4 = a at hfewer
  generalize (year - 1) / 100 = b at hfewer
  generalize (year - 1) / 400 = e
  by_cases hd4 : year % 4 = 0 <;> by_cases hd100 : year % 100 = 0 <;>
    by_cases hd400 : year % 400 = 0 <;> simp_all <;> omega

namespace Date

/-- The year of a day is the one whose days it is among. -/
theorem yearOfDay_of_bounds {year n : Nat} (hyear : 1 ≤ year) (hlow : daysBeforeYear year < n)
    (hhigh : n ≤ daysBeforeYear (year + 1)) : yearOfDay n = year := by
  obtain ⟨guess, hguess⟩ : ∃ guess, (n - 1) * 400 / 146097 + 1 = guess := ⟨_, rfl⟩
  -- the guess by the mean length of a year misses by one year at most
  have hnear : guess + 1 = year ∨ guess = year ∨ guess = year + 1 := by
    simp only [daysBeforeYear] at hlow hhigh
    omega
  simp only [yearOfDay, hguess]
  rcases hnear with rfl | rfl | rfl
  · have hle : daysBeforeYear guess ≤ daysBeforeYear (guess + 1) := by
      simp only [daysBeforeYear]
      omega
    rw [if_neg (by omega), if_pos hlow]
  · rw [if_neg (by omega), if_neg (by omega)]
  · rw [if_pos hhigh, Nat.add_sub_cancel]

/-! ## Months -/

theorem daysBeforeMonth_succ (year : Nat) {month : Nat} (hmonth : 1 ≤ month) :
    daysBeforeMonth year (month + 1) = daysBeforeMonth year month + daysInMonth year month := by
  obtain ⟨m, rfl⟩ : ∃ m, month = m + 1 := ⟨month - 1, by omega⟩
  rfl

theorem daysBeforeMonth_mono (year : Nat) : Monotone (daysBeforeMonth year) := by
  refine monotone_nat_of_le_succ fun month => ?_
  cases month with
  | zero => exact Nat.le_refl _
  | succ month => exact Nat.le_add_right _ _

/-- All months together have the days of the year. -/
theorem daysBeforeMonth_thirteen (year : Nat) :
    daysBeforeMonth year 13 = 337 + daysInMonth year 2 := by
  simp only [daysBeforeMonth, daysInMonth]
  omega

/-- The month of a day is the one whose days it is among. -/
theorem monthOfDay_of_bounds {year month day : Nat} (hmonth : 1 ≤ month ∧ month ≤ 12)
    (hlow : daysBeforeMonth year month < day) (hhigh : day ≤ daysBeforeMonth year (month + 1)) :
    monthOfDay year day = month := by
  have hfind : (List.range 12).find? (fun m => day ≤ daysBeforeMonth year (m + 2)) =
      some (month - 1) := by
    rw [List.find?_range_eq_some]
    refine ⟨?_, ?_, ?_⟩
    · rw [show month - 1 + 2 = month + 1 by omega]
      simpa using hhigh
    · simp only [List.mem_range]
      omega
    · intro m hm
      have hle := daysBeforeMonth_mono year (show m + 2 ≤ month by omega)
      simp only [Bool.not_eq_true', decide_eq_false_iff_not]
      omega
  simp only [monthOfDay, hfind]
  omega

/-! ## Days -/

/-- **A date is found again from its day number.** -/
theorem ofDayNumber?_dayNumber (d : Date) : ofDayNumber? d.dayNumber = some d := by
  have hvalid := d.valid
  simp only [isDate, Bool.and_eq_true, decide_eq_true_eq] at hvalid
  obtain ⟨⟨⟨⟨⟨hyear, -⟩, hmonth⟩, hmonth'⟩, hday⟩, hday'⟩ := hvalid
  have hsucc := daysBeforeMonth_succ d.year hmonth
  have hlast := daysBeforeMonth_mono d.year (show d.month + 1 ≤ 13 by omega)
  rw [daysBeforeMonth_thirteen] at hlast
  have hnext := daysBeforeYear_succ hyear
  have hyearOf : yearOfDay d.dayNumber = d.year :=
    yearOfDay_of_bounds hyear (by simp only [dayNumber]; omega) (by simp only [dayNumber]; omega)
  have hrest : d.dayNumber - daysBeforeYear d.year = daysBeforeMonth d.year d.month + d.day := by
    simp only [dayNumber]
    omega
  have hmonthOf : monthOfDay d.year (daysBeforeMonth d.year d.month + d.day) = d.month :=
    monthOfDay_of_bounds ⟨hmonth, hmonth'⟩ (by omega) (by omega)
  have hpositive : ¬ ((d.dayNumber : Int) < 1) := by
    simp only [dayNumber]
    omega
  simp only [ofDayNumber?, hpositive, if_false, Int.toNat_natCast, hyearOf, hrest, hmonthOf,
    Nat.add_sub_cancel_left, of?_self]

end Date

/-! ## Moments of UTC -/

theorem TimeOfDay.micros_lt (t : TimeOfDay) : t.micros < microsPerDay := by
  have hvalid := t.valid
  simp only [micros, microsPerDay]
  omega

theorem TimeOfDay.ofMicros_micros (t : TimeOfDay) : ofMicros t.micros = t := by
  obtain ⟨hour, minute, second, microsecond, hvalid⟩ := t
  simp only [ofMicros, micros, TimeOfDay.mk.injEq]
  omega

namespace Moment

theorem written_div (m : Moment) : m.written / microsPerDay = m.date.dayNumber := by
  have hmicros := m.time.micros_lt
  simp only [written, microsPerDay] at hmicros ⊢
  omega

theorem written_mod (m : Moment) : (m.written % microsPerDay).toNat = m.time.micros := by
  have hmicros := m.time.micros_lt
  simp only [written, microsPerDay] at hmicros ⊢
  omega

/-- A moment of UTC is found again from its place on the time line. -/
theorem ofInstant?_written {m : Moment} (h : m.offset = some 0) :
    ofInstant? m.written = some m := by
  have hself : (⟨m.date, m.time, some 0⟩ : Moment) = m := by rw [← h]
  simp only [ofInstant?, written_div, written_mod, Date.ofDayNumber?_dayNumber,
    TimeOfDay.ofMicros_micros, Option.bind_eq_bind, Option.bind_some, Option.pure_def, hself]

theorem instant_of_utc {m : Moment} (h : m.offset = some 0) : m.instant = .ok m.written := by
  have hrange : offsetInRange 0 = true := by decide
  simp [instant, usableOffset, h, hrange, bind, Except.bind, pure, Except.pure]

theorem toUtc_of_instant {m u : Moment} {instant : Int} (hinstant : m.instant = .ok instant)
    (hfound : ofInstant? instant = some u) : m.toUtc = .ok u := by
  simp [toUtc, hinstant, hfound, bind, Except.bind]

/-- **A moment of UTC is itself in UTC.** -/
theorem toUtc_of_utc {m : Moment} (h : m.offset = some 0) : m.toUtc = .ok m :=
  toUtc_of_instant (instant_of_utc h) (ofInstant?_written h)

end Moment

/-- **A moment of UTC can be written as a timestamp.** -/
theorem Query.timestamp_of_utc {now : Moment} (h : now.offset = some 0) :
    ∃ t, timestamp now = .ok t := by
  simp [timestamp, h, Moment.toUtc_of_utc h, bind, Except.bind, pure, Except.pure]

end Winnow

import Winnow.Proofs.Calendar.IsoMoment
import Winnow.Proofs.Calendar.TimeLine
import Winnow.Proofs.Evaluation.Ranges

/-!
# Comparisons with days

In a field of dates equality is that of days in UTC, and the other comparisons are those of
milliseconds.  For times of whole seconds they describe the same days.

* `Value.HoldsTime` : a date or a moment, or the ISO text of one, as a record may hold it;
* `Value.IsAt` : the moment of a value in UTC, which decides all comparisons;
* `Filter.accepts_day` : equality with a day is to be at or after it and before the next one, and to
  be in a range is to be neither before nor after it.
-/

namespace Winnow

open Outcome

namespace Moment

/-- A moment of whole seconds with an offset of whole minutes, if any, that is in the calendar in
UTC. -/
structure IsWhole (m : Moment) : Prop where
  seconds : m.time.microsecond = 0
  minutes : m.HasMinutes
  inCalendar : ∃ u, m.toUtc = .ok u

theorem IsWhole.instantOf_mod {m : Moment} (h : m.IsWhole) : m.instantOf % 1000000 = 0 := by
  have hoffset : m.offset.getD 0 % 1000000 = 0 := by
    cases hzone : m.offset with
    | none => rfl
    | some offset =>
      obtain ⟨minutes, rfl, -⟩ := h.minutes offset hzone
      rw [Option.getD_some]
      omega
  have hseconds := h.seconds
  simp only [instantOf, written, TimeOfDay.micros, microsPerDay, hseconds]
  omega

/-- A moment of UTC lies in its day. -/
theorem instantOf_bounds {u : Moment} (h : u.offset = some 0) :
    u.date.dayNumber * microsPerDay ≤ u.instantOf ∧
      u.instantOf < (u.date.dayNumber + 1) * microsPerDay := by
  have hmicros := u.time.micros_lt
  simp only [instantOf, written, h, Option.getD_some, microsPerDay] at hmicros ⊢
  omega

theorem instantOf_ofDate (d : Date) : (ofDate d).instantOf = d.dayNumber * microsPerDay := by
  have hmidnight : TimeOfDay.midnight.micros = 0 := rfl
  simp only [instantOf, written, ofDate, hmidnight, Option.getD_some]
  omega

end Moment

namespace Value

/-- A date or a moment, or the ISO text of one of them. -/
inductive HoldsTime : Value → Prop
  | date (d : Date) : HoldsTime (.date d)
  | dateText (d : Date) : HoldsTime (.text d.isoText)
  | moment {m : Moment} (h : m.IsWhole) : HoldsTime (.moment m)
  | momentText {m : Moment} {t : Text} (h : m.IsWhole) (ht : m.isoText = .ok t) :
    HoldsTime (.text t)

/-- The moment of a value is a given one in UTC, of whole seconds. -/
structure IsAt (today : Date) (v : Value) (u : Moment) : Prop where
  moment : ∃ m, v.toMoment today = .ok (some m) ∧ m.toUtc = .ok u
  seconds : u.instantOf % 1000000 = 0

variable {today : Date} {v w : Value} {u u' : Moment}

theorem isAt_of_moment {m : Moment} (h : m.IsWhole)
    (hv : v.toMoment today = .ok (some m.assumeUtc)) : ∃ u, v.IsAt today u := by
  obtain ⟨u, hu⟩ := h.inCalendar
  refine ⟨u, ⟨m.assumeUtc, hv, hu⟩, ?_⟩
  rw [(Moment.of_toUtc hu).2.1]
  exact h.instantOf_mod

theorem isAt_of_date {d : Date} (hv : v.toMoment today = .ok (some (.ofDate d))) :
    v.IsAt today (.ofDate d) := by
  refine ⟨⟨_, hv, Moment.toUtc_of_utc rfl⟩, ?_⟩
  rw [Moment.instantOf_ofDate, microsPerDay]
  omega

theorem isAt_isoText (today d : Date) : IsAt today (.text d.isoText) (.ofDate d) :=
  isAt_of_date (Moment.ofWritten_isoText today d)

theorem HoldsTime.isAt (h : v.HoldsTime) (today : Date) : ∃ u, v.IsAt today u := by
  cases h with
  | date d => exact ⟨_, isAt_of_date rfl⟩
  | dateText d => exact ⟨_, isAt_isoText today d⟩
  | moment h => exact isAt_of_moment h rfl
  | momentText h ht => exact isAt_of_moment h (Moment.ofWritten_of_isoText today h.minutes ht)

theorem HoldsTime.isNull (h : v.HoldsTime) : v.isNull = false := by
  cases h <;> rfl

namespace IsAt

theorem offset (h : v.IsAt today u) : u.offset = some 0 := by
  obtain ⟨m, -, hu⟩ := h.moment
  exact (Moment.of_toUtc hu).2.2

theorem isSecond (h : v.IsAt today u) : Moment.IsSecond u.instantOf := by
  obtain ⟨hlow, hhigh⟩ := Moment.instantOf_bounds h.offset
  obtain ⟨hfirst, hlast⟩ := u.date.dayNumber_bounds
  refine ⟨h.seconds, ?_, ?_⟩
  · rw [microsPerDay] at *
    omega
  · rw [microsPerDay] at *
    omega

theorem toEpochMillis (h : v.IsAt today u) :
    v.toEpochMillis today = .ok (Moment.epochMillisOfInstant u.instantOf) := by
  obtain ⟨m, hm, hu⟩ := h.moment
  obtain ⟨hrange, hinstant, -⟩ := Moment.of_toUtc hu
  have hmillis : m.epochMillis = .ok (Moment.epochMillisOfInstant m.instantOf) := by
    unfold Moment.epochMillis
    rw [Moment.instant_eq_ok_iff.mpr ⟨hrange, rfl⟩]
    rfl
  unfold Value.toEpochMillis
  rw [hm, hinstant]
  exact hmillis

/-- Equality is that of the days in UTC. -/
theorem sameDay (hv : v.IsAt today u) (hw : w.IsAt today u') :
    v.sameDay today w = .ok (u.date == u'.date) := by
  obtain ⟨m, hm, hu⟩ := hv.moment
  obtain ⟨m', hm', hu'⟩ := hw.moment
  unfold Value.sameDay
  rw [hm, hm']
  show (do return (← m.toUtc).date == (← m'.toUtc).date) = _
  rw [hu, hu']
  rfl

theorem less (hv : v.IsAt today u) (hw : w.IsAt today u') :
    (Moment.epochMillisOfInstant u.instantOf).less (Moment.epochMillisOfInstant u'.instantOf) =
      decide (u.instantOf < u'.instantOf) := by
  rw [Binary64.less_eq, Moment.order?_epochMillisOfInstant hv.isSecond hw.isSecond,
    Option.any_some, Bool.eq_iff_iff, Ordering.isLT_iff_eq_lt, compare_lt_iff_lt,
    decide_eq_true_iff]

theorem lessOrEqual (hv : v.IsAt today u) (hw : w.IsAt today u') :
    (Moment.epochMillisOfInstant u.instantOf).lessOrEqual
      (Moment.epochMillisOfInstant u'.instantOf) = !decide (u'.instantOf < u.instantOf) := by
  rw [Binary64.lessOrEqual_eq, Moment.order?_epochMillisOfInstant hv.isSecond hw.isSecond,
    Option.any_some, Bool.eq_iff_iff, Ordering.isLE_iff_ne_gt, compare_gt_iff_gt,
    Bool.not_eq_true', decide_eq_false_iff_not]

/-- Equality with a day is to be at or after its midnight and before that of the next day. -/
theorem day_eq (hv : v.IsAt today u) {day next : Date}
    (hnext : next.dayNumber = day.dayNumber + 1) :
    (u.date == day) = (!decide (u.instantOf < (Moment.ofDate day).instantOf) &&
      decide (u.instantOf < (Moment.ofDate next).instantOf)) := by
  obtain ⟨hlow, hhigh⟩ := Moment.instantOf_bounds hv.offset
  have hday : u.date = day ↔ u.date.dayNumber = day.dayNumber :=
    ⟨congrArg Date.dayNumber, Date.dayNumber_injective⟩
  rw [Bool.eq_iff_iff, beq_iff_eq, hday, Moment.instantOf_ofDate, Moment.instantOf_ofDate, hnext]
  simp only [Bool.and_eq_true, Bool.not_eq_true', decide_eq_false_iff_not, decide_eq_true_eq]
  rw [microsPerDay] at *
  omega

end IsAt

theorem compareMoments_ok {test : Binary64 → Binary64 → Bool} (hv : v.IsAt today u)
    (hw : w.IsAt today u') :
    compareMoments today test v w = .ok (test (Moment.epochMillisOfInstant u.instantOf)
      (Moment.epochMillisOfInstant u'.instantOf)) := by
  unfold compareMoments
  rw [hv.toEpochMillis, hw.toEpochMillis]
  rfl

end Value

namespace Filter

/-- **Equality with a day agrees with the order of instants.**  In a field of dates, a time of whole
seconds equals a day if it is not before the day and is before the next one, and it is in a range of
days if it is neither before the first nor after the midnight of the last. -/
theorem accepts_day (today : Date) (d : Definition) (f : Filter) (r : Record) {x : Value}
    (hkind : d.kind = .date) (hread : r.read d.field = .ok x) (hx : x.HoldsTime) (day : Date) :
    ∃ equal before : Bool,
      (f.asking .equals (.text day.isoText)).accepts today d r = .ok equal ∧
      (f.asking .notEquals (.text day.isoText)).accepts today d r = .ok !equal ∧
      (f.asking .before (.text day.isoText)).accepts today d r = .ok before ∧
      (day ≠ .last → ∃ (next : Date) (beforeNext : Bool), day.addDays? 1 = some next ∧
        (f.asking .before (.text next.isoText)).accepts today d r = .ok beforeNext ∧
        equal = (!before && beforeNext)) ∧
      ∀ limit : Date, ∃ after : Bool,
        (f.asking .after (.text limit.isoText)).accepts today d r = .ok after ∧
        (f.asking .between (.list [.text day.isoText, .text limit.isoText])).accepts today d r =
          .ok (!before && !after) := by
  obtain ⟨u, hu⟩ := hx.isAt today
  have hasked (o : Operator) (v : Value) :
      (f.asking o v).accepts today d r = o.test today .date x v := by
    rw [accepts_known hread hx.isNull rfl, hkind]
    rfl
  have hday (e : Date) : Value.IsAt today (.text e.isoText) (.ofDate e) :=
    Value.isAt_isoText today e
  have hequals : x.equalsFor today .date (.text day.isoText) = .ok (u.date == day) :=
    hu.sameDay (hday day)
  have hbefore (e : Date) : (f.asking .before (.text e.isoText)).accepts today d r =
      .ok (decide (u.instantOf < (Moment.ofDate e).instantOf)) := by
    rw [hasked, ← hu.less (hday e)]
    exact Value.compareMoments_ok hu (hday e)
  refine ⟨u.date == day, _, (hasked _ _).trans hequals, ?_, hbefore day, fun hlast => ?_,
    fun limit => ⟨decide ((Moment.ofDate limit).instantOf < u.instantOf), ?_, ?_⟩⟩
  · exact (hasked _ _).trans (Operator.test_notEquals hequals)
  · obtain ⟨next, hnext, hnumber⟩ := Date.exists_next hlast
    exact ⟨next, _, hnext, hbefore next, hu.day_eq hnumber⟩
  · rw [hasked, ← (hday limit).less hu]
    exact Value.compareMoments_ok hu (hday limit)
  · rw [hasked, ← (hday day).lessOrEqual hu, ← hu.lessOrEqual (hday limit)]
    exact Value.liesBetween_ok rfl hu.toEpochMillis (hday day).toEpochMillis
      (hday limit).toEpochMillis

/-- A start date in writing, late in the evening of a leap day west of Greenwich, and the first of
March, which it is in UTC. -/
theorem accepts_day_startDate :
    let d := Employees.definition "startDate" "Start Date" "" .date Employees.dateOperators .equals
      (by decide) (by decide)
    let f : Filter := ⟨"a", "startDate", .known .equals, .null, none⟩
    let r : Record := [("startDate", .text "2020-02-29T23:30:00-01:00")]
    let day : Date := ⟨2020, 3, 1, by decide⟩
    ∃ (next : Date) (equal before beforeNext : Bool), day.addDays? 1 = some next ∧
      (f.asking .equals (.text day.isoText)).accepts default d r = .ok equal ∧
      (f.asking .before (.text day.isoText)).accepts default d r = .ok before ∧
      (f.asking .before (.text next.isoText)).accepts default d r = .ok beforeNext ∧
      equal = (!before && beforeNext) := by
  intro d f r day
  let m : Moment := ⟨⟨2020, 2, 29, by decide⟩, ⟨23, 30, 0, 0, by decide⟩, some (-3600000000)⟩
  have hwhole : m.IsWhole := by
    refine ⟨rfl, ?_, ⟨⟨day, ⟨0, 30, 0, 0, by decide⟩, some 0⟩, by decide +kernel⟩⟩
    rintro _ ⟨⟩
    exact ⟨-60, rfl, by decide⟩
  obtain ⟨equal, before, hequal, -, hbefore, hnext, -⟩ :=
    accepts_day default d f r rfl rfl (.momentText hwhole (by decide +kernel)) day
  obtain ⟨next, beforeNext, hday, hbeforeNext, hagree⟩ := hnext (by decide)
  exact ⟨next, equal, before, beforeNext, hday, hequal, hbefore, hbeforeNext, hagree⟩

end Filter

end Winnow

import Winnow.Proofs.Evaluation.OwnValue

/-!
# Timestamps are read back

A payload carries the time at which it was made, in UTC and down to the millisecond.  Where dates
are read, the text of this time is the moment again, without what is less than a millisecond.

* `TimeOfDay.toMillis`, `Moment.toMillis` : a time of day and a moment of UTC, cut at the
  millisecond;
* `Moment.ofIso?_stampChars` : the characters of a timestamp are read as the moment that was cut;
* `Query.timestamp_eq` : a timestamp is written by the date and the time of day in UTC;
* `Query.payload_timestamp` : for every moment that is in the calendar in UTC, the timestamp of a
  payload is read as that moment, cut at the millisecond.
-/

namespace Winnow

/-! ## Cutting at the millisecond -/

/-- A time of day without what is less than a millisecond. -/
def TimeOfDay.toMillis (t : TimeOfDay) : TimeOfDay :=
  { t with
    microsecond := t.microsecond / 1000 * 1000
    valid := by have := t.valid; omega }

namespace Moment

/-- A moment without what is less than a millisecond, as one of UTC. -/
def toMillis (u : Moment) : Moment := ⟨u.date, u.time.toMillis, some 0⟩

/-- Cutting a moment of UTC cuts its instant. -/
theorem instantOf_toMillis {u : Moment} (h : u.offset = some 0) :
    u.toMillis.instantOf = u.instantOf / 1000 * 1000 := by
  simp only [instantOf, written, toMillis, TimeOfDay.micros, TimeOfDay.toMillis, h,
    Option.getD_some, microsPerDay]
  omega

/-! ## The characters of a timestamp -/

/-- The characters of a timestamp after the date. -/
def stampClock (t : TimeOfDay) : List Char :=
  t.secondChars ++ '.' :: (paddedDigits 3 (t.microsecond / 1000) ++ ['Z'])

/-- The characters of a timestamp. -/
def stampChars (u : Moment) : List Char := u.date.isoChars ++ 'T' :: stampClock u.time

theorem mem_stampClock {t : TimeOfDay} {c : Char} (hc : c ∈ stampClock t) :
    c.isDigit ∨ c = ':' ∨ c = '.' ∨ c = 'Z' := by
  simp only [stampClock, TimeOfDay.secondChars, List.mem_append, List.mem_cons,
    List.not_mem_nil, or_false] at hc
  rcases hc with ((((hc | rfl) | hc) | rfl) | hc) | rfl | hc | rfl
  all_goals first
    | exact .inl (isDigit_of_mem_paddedDigits hc)
    | exact .inr (by decide)

theorem stampClock_bounds {t : TimeOfDay} {c : Char} (hc : c ∈ stampClock t) :
    0x21 ≤ c.toNat ∧ c.toNat ≤ 0x7E := by
  rcases mem_stampClock hc with hdigit | rfl | rfl | rfl
  · have hbounds := isDigit_bounds hdigit
    omega
  all_goals decide

/-- **The clock of a timestamp is read**, part by part, with UTC as its zone. -/
theorem isoClock?_stampClock (t : TimeOfDay) :
    isoClock? false [.hour, .minute, .second, .fraction] (stampClock t) =
      some ([t.hour, t.minute, t.second, t.microsecond / 1000 * 1000], some 0) := by
  obtain ⟨hhour, hminute, hsecond, hmicros⟩ := t.valid
  have hzone : isoClock? true [] ['Z'] = some ([], some 0) := rfl
  have hnext : ∀ c ∈ (['Z'] : List Char).head?, c.isDigit = false := by
    rintro _ ⟨⟩
    rfl
  simp only [stampClock, TimeOfDay.secondChars, List.append_assoc, List.cons_append,
    List.nil_append]
  rw [isoClock?_hour (by omega), isoClock?_colon (.inl ⟨rfl, rfl⟩) (by omega),
    isoClock?_colon (.inr ⟨rfl, rfl⟩) (by omega),
    isoClock?_fraction (by decide) (by decide) (by omega) true [] hnext, hzone]
  rfl

/-- **The characters of a timestamp are the moment**, cut at the millisecond. -/
theorem ofIso?_stampChars (u : Moment) : ofIso? u.stampChars = some u.toMillis := by
  have hascii : ∀ c ∈ stampClock u.time, c.toNat < 0x80 := by
    intro c hc
    have hbounds := stampClock_bounds hc
    omega
  have hlength : 2 ≤ (stampClock u.time).length := by
    simp only [stampClock, List.length_append, List.length_cons]
    omega
  exact ofIso?_of_clock u.date hascii hlength (isoClock?_stampClock u.time) u.time.toMillis
    ⟨rfl, rfl, rfl, rfl⟩

end Moment

/-! ## Payloads -/

namespace Query

/-- A timestamp is written by the date and the time of day in UTC. -/
theorem timestamp_eq {now u : Moment} {offset : Int} (hoffset : now.offset = some offset)
    (hu : now.toUtc = .ok u) : timestamp now = .ok (Text.ofChars u.stampChars) := by
  simp [timestamp, hoffset, hu, Moment.stampChars, Moment.stampClock, bind, Except.bind, pure,
    Except.pure]

/-- **The timestamp of a payload is read back.**  For every moment with an offset from UTC that is
in the calendar in UTC there is a timestamp, which the payload of any filters carries, and on any day
it is read as the moment of UTC at the same instant, cut down to the millisecond. -/
theorem payload_timestamp (c : Catalog) (filters : List Filter) {now : Moment} {offset : Int}
    (hoffset : now.offset = some offset) (hnow : now.InCalendar) (today : Date) :
    ∃ t m, payload c now filters =
        (do return .object [("query", (← ofFilters c filters).wire), ("timestamp", .text t)]) ∧
      timestamp now = .ok t ∧ Moment.ofText today t = .ok (some m) ∧ m.offset = some 0 ∧
      m.instantOf = now.instantOf / 1000 * 1000 := by
  obtain ⟨u, hu⟩ := Moment.exists_toUtc_iff.mpr hnow
  obtain ⟨-, hinstant, hutc⟩ := Moment.of_toUtc hu
  have htime := timestamp_eq hoffset hu
  refine ⟨_, u.toMillis, ?_, htime, ?_, rfl, ?_⟩
  · unfold payload
    rw [htime]
    rfl
  · unfold Moment.ofText
    rw [Text.chars_ofChars, Moment.ofIso?_stampChars]
    rfl
  · rw [Moment.instantOf_toMillis hutc, hinstant]

/-- In the last second of a leap day, west of Greenwich, it is March in UTC. -/
theorem payload_timestamp_leapDay :
    let now : Moment :=
      ⟨⟨2020, 2, 29, by decide⟩, ⟨23, 59, 59, 999999, by decide⟩, some (-3600000000)⟩
    ∃ t m, timestamp now = .ok t ∧ t = ("2020-03-01T00:59:59.999Z" : Text) ∧
      Moment.ofText default t = .ok (some m) ∧ m.offset = some 0 ∧
      m.instantOf = now.instantOf / 1000 * 1000 := by
  intro now
  have hnow : now.InCalendar := ⟨by decide, by decide, by decide⟩
  obtain ⟨t, m, -, ht, hm, hutc, hinstant⟩ :=
    payload_timestamp Employees.catalog [] (rfl : now.offset = some (-3600000000)) hnow default
  have htext : timestamp now = .ok "2020-03-01T00:59:59.999Z" := by decide +kernel
  exact ⟨t, m, ht, Except.ok.inj (ht.symm.trans htext), hm, hutc, hinstant⟩

end Query

end Winnow

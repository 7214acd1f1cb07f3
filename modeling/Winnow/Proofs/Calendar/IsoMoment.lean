import Winnow.Proofs.Calendar.IsoDate

/-!
# ISO moments are read back

The ISO 8601 text of a moment is read as the moment, to the microsecond, if its offset from UTC is a
whole number of minutes.

* `isoZone?_offsetChars` : an offset of whole minutes is read back;
* `isoClock?_fraction` : so are the first digits of a fraction of a second;
* `isoClock?_isoChars` : so are a time of day and the offset after it;
* `Moment.ofIso?_of_clock` : a date is read together with the clock after it;
* `Moment.ofIso?_self` : the text is the moment;
* `Moment.ofWritten_of_isoText` : where filters read dates, it is the moment, in UTC without a zone.
-/

namespace Winnow

theorem isDigit_ne_mark {c : Char} (hc : c.isDigit) :
    c ≠ '-' ∧ c ≠ '+' ∧ c ≠ 'Z' ∧ c ≠ 'z' ∧ c ≠ ':' := by
  refine ⟨?_, ?_, ?_, ?_, ?_⟩ <;> rintro rfl <;> exact absurd hc (by decide)

/-- A number of two digits begins with one of them. -/
theorem exists_paddedDigits_cons {width n : Nat} (hw : 0 < width) (hn : n < 10 ^ width) :
    ∃ c cs, paddedDigits width n = c :: cs ∧ c.isDigit := by
  have hlen := length_paddedDigits hw hn
  cases h : paddedDigits width n with
  | nil =>
    rw [h] at hlen
    exact absurd hlen.symm (Nat.ne_of_gt hw)
  | cons c cs => exact ⟨c, cs, rfl, isDigit_of_mem_paddedDigits (h ▸ List.mem_cons_self)⟩

/-! ## Offsets -/

/-- The characters of the zone of a moment. -/
def zoneChars : Option Int → List Char
  | none => []
  | some offset => offsetChars offset

/-- A number of minutes less than a day, as an offset. -/
def IsMinutes (offset : Int) : Prop :=
  ∃ minutes : Int, offset = minutes * 60000000 ∧ minutes.natAbs < 1440

theorem IsMinutes.offsetInRange {offset : Int} (h : IsMinutes offset) :
    offsetInRange offset = true := by
  obtain ⟨minutes, rfl, hlt⟩ := h
  refine decide_eq_true ?_
  rw [microsPerDay]
  omega

/-- An offset of whole minutes is written by its hours and minutes. -/
theorem offsetChars_minutes (minutes : Int) :
    offsetChars (minutes * 60000000) = (if minutes < 0 then '-' else '+') ::
      (paddedDigits 2 (minutes.natAbs / 60) ++ ':' :: paddedDigits 2 (minutes.natAbs % 60)) := by
  have habs : (minutes * 60000000).natAbs = minutes.natAbs * 60000000 := Int.natAbs_mul _ _
  have hsign : minutes * 60000000 < 0 ↔ minutes < 0 := by omega
  have hhours : minutes.natAbs * 60000000 / 3600000000 = minutes.natAbs / 60 := by omega
  have hseconds : minutes.natAbs * 60000000 / 1000000 % 60 = 0 := by omega
  have hmicros : minutes.natAbs * 60000000 % 1000000 = 0 := by omega
  simp [offsetChars, habs, hsign, hhours, hseconds, hmicros]

theorem isoZone?_hours (negative : Bool) {hours minutes : Nat} (hhours : hours < 24)
    (hminutes : minutes < 60) :
    isoZone? ((if negative then '-' else '+') ::
        (paddedDigits 2 hours ++ ':' :: paddedDigits 2 minutes)) =
      some ((if negative then -1 else 1) * ((hours * 60 + minutes) * 60 : Nat) *
        microsPerSecond) := by
  have hread : takeDigits 2 (paddedDigits 2 minutes) = some (minutes, []) :=
    Date.takeDigits_whole (by decide) (by omega)
  have hread' (rest : List Char) :
      takeDigits 2 (paddedDigits 2 hours ++ rest) = some (hours, rest) :=
    takeDigits_paddedDigits (by decide) (by omega) rest
  have hrange : ¬(59 < minutes ∨ 23 < hours) := by omega
  unfold isoZone?
  cases negative <;> simp [hread, hread', hrange]

/-- **An offset of whole minutes is read back.** -/
theorem isoZone?_offsetChars {offset : Int} (h : IsMinutes offset) :
    isoZone? (offsetChars offset) = some offset := by
  obtain ⟨minutes, rfl, hlt⟩ := h
  have hhours : minutes.natAbs / 60 < 24 := by omega
  have hminutes : minutes.natAbs % 60 < 60 := by omega
  have hread := isoZone?_hours (minutes < 0) hhours hminutes
  simp only [decide_eq_true_eq] at hread
  rw [offsetChars_minutes, hread, microsPerSecond, Option.some.injEq]
  split <;> omega

/-! ## Times of day -/

/-- The parts of a time of day, and the offset, as they are read. -/
abbrev WrittenClock := List Nat × Option Int

/-- What is read before a part. -/
def WrittenClock.cons (n : Nat) (r : WrittenClock) : WrittenClock := (n :: r.1, r.2)

theorem isoClock?_hour {n : Nat} (hn : n < 10 ^ 2) (more : List ClockPart) (rest : List Char) :
    isoClock? false (.hour :: more) (paddedDigits 2 n ++ rest) =
      (isoClock? false more rest).map (WrittenClock.cons n) := by
  have hread := takeDigits_paddedDigits (by decide : 0 < 2) hn rest
  obtain ⟨c, cs, hcs, hdigit⟩ := exists_paddedDigits_cons (by decide : 0 < 2) hn
  rw [hcs, List.cons_append] at hread ⊢
  obtain ⟨hminus, hplus, hupper, hlower, hcolon⟩ := isDigit_ne_mark hdigit
  rw [isoClock?]
  · simp [hminus, hplus, hupper, hlower, hcolon, hread]
    cases isoClock? false more rest <;> rfl
  · nofun

theorem isoClock?_colon {colons : Bool} {part : ClockPart}
    (hpart : colons = false ∧ part = .minute ∨ colons = true ∧ part = .second) {n : Nat}
    (hn : n < 10 ^ 2) (more : List ClockPart) (rest : List Char) :
    isoClock? colons (part :: more) (':' :: (paddedDigits 2 n ++ rest)) =
      (isoClock? true more rest).map (WrittenClock.cons n) := by
  have hread := takeDigits_paddedDigits (by decide : 0 < 2) hn rest
  rcases hpart with ⟨rfl, rfl⟩ | ⟨rfl, rfl⟩ <;> rw [isoClock?] <;> simp [hread] <;>
    cases isoClock? true more rest <;> rfl

theorem zoneChars_head (offset : Option Int) :
    ∀ c ∈ (zoneChars offset).head?, c = '-' ∨ c = '+' := by
  intro c hc
  cases offset with
  | none => cases hc
  | some o =>
    rcases Option.some.inj hc with rfl
    show (if o < 0 then '-' else '+') = '-' ∨ (if o < 0 then '-' else '+') = '+'
    split
    · exact .inl rfl
    · exact .inr rfl

theorem isoClock?_zone (colons : Bool) (parts : List ClockPart) {offset : Option Int}
    (h : ∀ o ∈ offset, IsMinutes o) :
    isoClock? colons parts (zoneChars offset) = some ([], offset) := by
  cases offset with
  | none => rw [zoneChars, isoClock?]
  | some o =>
    have hread := isoZone?_offsetChars (h o rfl)
    obtain ⟨minutes, rfl, -⟩ := h o rfl
    rw [zoneChars]
    rw [offsetChars_minutes] at hread ⊢
    by_cases hneg : minutes < 0
    · rw [if_pos hneg] at hread ⊢
      unfold isoClock?
      simp [hread]
    · rw [if_neg hneg] at hread ⊢
      unfold isoClock?
      simp [hread]

/-- Digits that are fewer than six stand at the front of the microseconds. -/
theorem fractionMicros_paddedDigits {width n : Nat} (hw : 0 < width) (hle : width ≤ 6)
    (hn : n < 10 ^ width) : fractionMicros (paddedDigits width n) = n * 10 ^ (6 - width) := by
  have hlen := length_paddedDigits hw hn
  have htake : (paddedDigits width n ++ List.replicate 6 '0').take 6 =
      paddedDigits width n ++ List.replicate (6 - width) '0' := by
    rw [List.take_append, List.take_of_length_le (by omega), hlen, List.take_replicate,
      Nat.min_eq_left (Nat.sub_le 6 width)]
  have hvalue := valueOf_paddedDigits width n
  rw [Numeral.valueOf_chars] at hvalue
  rw [fractionMicros, htake, Numeral.valueOf_chars, Nat.ofDigitChars_append, hvalue,
    Nat.ofDigitChars_replicate_zero, Nat.mul_comm]

theorem isoClock?_fraction {width n : Nat} (hw : 0 < width) (hle : width ≤ 6) (hn : n < 10 ^ width)
    (colons : Bool) (more : List ClockPart) {rest : List Char}
    (hrest : ∀ c ∈ rest.head?, c.isDigit = false) :
    isoClock? colons (.fraction :: more) ('.' :: (paddedDigits width n ++ rest)) =
      (isoClock? colons more rest).map (WrittenClock.cons (n * 10 ^ (6 - width))) := by
  have hdigits : ∀ c ∈ paddedDigits width n, c.isDigit := fun _ => isDigit_of_mem_paddedDigits
  have hfirst : rest.takeWhile Char.isDigit = [] ∧ rest.dropWhile Char.isDigit = rest := by
    cases rest with
    | nil => exact ⟨rfl, rfl⟩
    | cons c rest =>
      have hc := hrest c rfl
      exact ⟨List.takeWhile_cons_of_neg (by simp [hc]), List.dropWhile_cons_of_neg (by simp [hc])⟩
  have htake : (paddedDigits width n ++ rest).takeWhile Char.isDigit = paddedDigits width n := by
    rw [List.takeWhile_append_of_pos hdigits, hfirst.1, List.append_nil]
  have hdrop : (paddedDigits width n ++ rest).dropWhile Char.isDigit = rest := by
    rw [List.dropWhile_append_of_pos hdigits, hfirst.2]
  obtain ⟨c, cs, hcs, -⟩ := exists_paddedDigits_cons hw hn
  have hne : (paddedDigits width n).isEmpty = false := by rw [hcs]; rfl
  rw [isoClock?]
  simp [htake, hdrop, hne, fractionMicros_paddedDigits hw hle hn]
  cases isoClock? colons more rest <;> rfl

/-- **A time of day and the offset after it are read back.**  A fraction of zero is left out. -/
theorem isoClock?_isoChars (t : TimeOfDay) {offset : Option Int} (h : ∀ o ∈ offset, IsMinutes o) :
    isoClock? false [.hour, .minute, .second, .fraction] (t.isoChars ++ zoneChars offset) =
      some ([t.hour, t.minute, t.second] ++ if t.microsecond = 0 then [] else [t.microsecond],
        offset) := by
  obtain ⟨hhour, hminute, hsecond, hmicros⟩ := t.valid
  simp only [TimeOfDay.isoChars, TimeOfDay.secondChars, List.append_assoc, List.cons_append,
    List.nil_append]
  rw [isoClock?_hour (by omega), isoClock?_colon (.inl ⟨rfl, rfl⟩) (by omega),
    isoClock?_colon (.inr ⟨rfl, rfl⟩) (by omega)]
  by_cases hzero : t.microsecond = 0
  · rw [if_pos hzero, if_pos hzero, List.nil_append, isoClock?_zone true _ h]
    rfl
  · have hnext : ∀ c ∈ (zoneChars offset).head?, c.isDigit = false := by
      intro c hc
      rcases zoneChars_head offset c hc with rfl | rfl <;> decide
    rw [if_neg hzero, if_neg hzero, List.cons_append, isoClock?_fraction (by decide) (by decide)
      (by omega) true [] hnext, isoClock?_zone true _ h]
    simp [WrittenClock.cons]

/-! ## Moments -/

namespace Moment

/-- The characters of a moment in ISO 8601. -/
def isoChars (m : Moment) : List Char :=
  m.date.isoChars ++ 'T' :: (m.time.isoChars ++ zoneChars m.offset)

/-- The offset of a moment, if it has one, is a number of minutes less than a day. -/
def HasMinutes (m : Moment) : Prop := ∀ offset ∈ m.offset, IsMinutes offset

theorem isoText_eq {m : Moment} (h : m.HasMinutes) : m.isoText = .ok (Text.ofChars m.isoChars) := by
  unfold isoText textWith isoChars
  cases hoffset : m.offset with
  | none => simp [zoneChars, pure, Except.pure, bind, Except.bind]
  | some offset =>
    have hrange := (h offset hoffset).offsetInRange
    simp [zoneChars, hrange, pure, Except.pure, bind, Except.bind]

/-- A character that moments are written with. -/
def IsWriting (c : Char) : Prop := c.isDigit ∨ c ∈ ['+', '-', '.', ':', 'T']

theorem isWriting_paddedDigits (width n : Nat) : ∀ c ∈ paddedDigits width n, IsWriting c :=
  fun _ hc => .inl (isDigit_of_mem_paddedDigits hc)

theorem isWriting_isoChars {m : Moment} (h : m.HasMinutes) : ∀ c ∈ m.isoChars, IsWriting c := by
  have hmark : ∀ {c : Char}, c ∈ ['+', '-', '.', ':', 'T'] → IsWriting c := .inr
  have hdate : ∀ c ∈ m.date.isoChars, IsWriting c := by
    intro c hc
    rcases Date.mem_isoChars hc with hdigit | rfl
    · exact .inl hdigit
    · exact hmark (by decide)
  have htime : ∀ c ∈ m.time.isoChars, IsWriting c := by
    simp only [TimeOfDay.isoChars, TimeOfDay.secondChars, List.forall_mem_append,
      List.forall_mem_singleton]
    refine ⟨⟨⟨⟨⟨?_, ?_⟩, ?_⟩, ?_⟩, ?_⟩, ?_⟩
    any_goals exact isWriting_paddedDigits _ _
    any_goals exact hmark (by decide)
    split
    · exact List.forall_mem_nil _
    · exact List.forall_mem_cons.mpr ⟨hmark (by decide), isWriting_paddedDigits _ _⟩
  have hzone : ∀ c ∈ zoneChars m.offset, IsWriting c := by
    cases hoffset : m.offset with
    | none => exact List.forall_mem_nil _
    | some offset =>
      obtain ⟨minutes, rfl, -⟩ := h offset hoffset
      simp only [zoneChars, offsetChars_minutes, List.forall_mem_append, List.forall_mem_cons]
      refine ⟨?_, isWriting_paddedDigits _ _, hmark (by decide), isWriting_paddedDigits _ _⟩
      split <;> exact hmark (by decide)
  rw [isoChars]
  simp only [List.forall_mem_append, List.forall_mem_cons]
  exact ⟨hdate, hmark (by decide), htime, hzone⟩

theorem IsWriting.bounds {c : Char} (hc : IsWriting c) : 0x2B ≤ c.toNat ∧ c.toNat ≤ 0x5A := by
  rcases hc with hdigit | hmark
  · have hbounds := isDigit_bounds hdigit
    omega
  · simp only [List.mem_cons, List.not_mem_nil, or_false] at hmark
    rcases hmark with rfl | rfl | rfl | rfl | rfl <;> decide

/-- A date is read together with a clock, whose parts make a time of day. -/
theorem ofIso?_of_clock (d : Date) {cs : List Char} {parts : List Nat} {zone : Option Int}
    (hascii : ∀ c ∈ cs, c.toNat < 0x80) (hlength : 2 ≤ cs.length)
    (hclock : isoClock? false [.hour, .minute, .second, .fraction] cs = some (parts, zone))
    (t : TimeOfDay) (hparts : parts.getD 0 0 = t.hour ∧ parts.getD 1 0 = t.minute ∧
      parts.getD 2 0 = t.second ∧ parts.getD 3 0 = t.microsecond) :
    ofIso? (d.isoChars ++ 'T' :: cs) = some ⟨d, t, zone⟩ := by
  have hplain : ((d.isoChars ++ 'T' :: cs).any fun c => decide (0x80 ≤ c.toNat)) = false := by
    rw [List.any_eq_false]
    intro c hc
    rw [decide_eq_true_iff, Nat.not_le]
    rcases List.mem_append.mp hc with hc | hc
    · have hbounds := Date.isoChars_bounds hc
      omega
    · rcases List.mem_cons.mp hc with rfl | hc
      · decide
      · exact hascii c hc
  have htake : Date.takeIso (d.isoChars ++ 'T' :: cs) =
      some ((d.year, d.month, d.day), 'T' :: cs) := by
    rw [Date.takeIso, Date.takeCalendar_append]
  have hhour : t.hour ≠ 24 := Nat.ne_of_lt t.valid.1
  have htime : TimeOfDay.of? t.hour t.minute t.second t.microsecond = some t := dif_pos t.valid
  have hshort : ¬ cs.length < 2 := Nat.not_lt.mpr hlength
  obtain ⟨hhours, hminutes, hseconds, hmicros⟩ := hparts
  unfold ofIso?
  simp only [hplain, htake, Date.of?_self, hclock, hshort, hhours, hminutes, hseconds, hmicros,
    hhour, htime, Bool.false_eq_true, if_false, Option.bind_eq_bind, Option.bind_some]
  rfl

/-- **A written moment is read back.** -/
theorem ofIso?_self {m : Moment} (h : m.HasMinutes) : ofIso? m.isoChars = some m := by
  have hascii : ∀ c ∈ m.time.isoChars ++ zoneChars m.offset, c.toNat < 0x80 := by
    intro c hc
    have hwritten : c ∈ m.isoChars :=
      List.mem_append_right _ (List.mem_cons_of_mem _ hc)
    have hbounds := (isWriting_isoChars h c hwritten).bounds
    omega
  have hlength : 2 ≤ (m.time.isoChars ++ zoneChars m.offset).length := by
    simp only [TimeOfDay.isoChars, TimeOfDay.secondChars, List.length_append, List.length_cons]
    omega
  refine ofIso?_of_clock m.date hascii hlength (isoClock?_isoChars m.time h) m.time
    ⟨rfl, rfl, rfl, ?_⟩
  split
  · rename_i hzero
    exact hzero.symm
  · rfl

/-- **Where filters read dates, a written moment is the moment**, in UTC if it has no zone. -/
theorem ofWritten_of_isoText (today : Date) {m : Moment} (h : m.HasMinutes) {t : Text}
    (ht : m.isoText = .ok t) : ofWritten today t = .ok (some m.assumeUtc) := by
  rw [isoText_eq h, Except.ok.injEq] at ht
  rw [← ht]
  refine ofWritten_ofChars today (fun c hc => ?_) (ofIso?_self h)
  have hbounds := (isWriting_isoChars h c hc).bounds
  omega

end Moment

end Winnow

import Winnow.Proofs.Binary64.Text
import Winnow.Proofs.Evaluation.Days

/-!
# Dates and their texts

A record may hold a date or a moment as it is, or the ISO text of it.  The text is read back as the
same moment, and it is no numeral, so a filter on a field of dates does not tell the two apart,
whatever its own value is.

* `Binary64.ofText?_isoChars` : the text of a date or of a moment is no numeral;
* `Value.WrittenAs` : a value, and the text that it is written as and read back from;
* `Value.writtenAs_date`, `Value.writtenAs_moment` : dates and moments are such values;
* `Value.WrittenAs.looselyEquals_eq` : where days cannot be compared, the two are equal to the same
  values;
* `Operator.test_written` : an operator on dates gives one answer for both, or one failure;
* `Filter.accepts_written` : a filter accepts both or none, or fails on both alike.
-/

namespace Winnow

open Outcome

/-! ## Written dates are no numerals -/

namespace Moment

theorem IsWriting.plain {c : Char} (hc : IsWriting c) :
    c ≠ '_' ∧ (CodePoint.scalar c).padsNumeral = false ∧ (CodePoint.scalar c).plainChar = c := by
  rcases hc with hdigit | hmark
  · exact Binary64.IsNumeralChar.plain (.inl hdigit)
  · simp only [List.mem_cons, List.not_mem_nil, or_false] at hmark
    rcases hmark with rfl | rfl | rfl | rfl | rfl <;> decide

theorem isWriting_date (d : Date) : ∀ c ∈ d.isoChars, IsWriting c := by
  intro c hc
  rcases Date.mem_isoChars hc with hdigit | rfl
  · exact .inl hdigit
  · exact .inr (by decide)

end Moment

/-- **What begins with a date is no numeral**, for its first hyphen ends the digits. -/
theorem Binary64.ofText?_isoChars (d : Date) {rest : List Char}
    (hrest : ∀ c ∈ rest, Moment.IsWriting c) :
    ofText? (Text.ofChars (d.isoChars ++ rest)) = none := by
  have hwriting : ∀ c ∈ d.isoChars ++ rest, Moment.IsWriting c :=
    List.forall_mem_append.mpr ⟨Moment.isWriting_date d, hrest⟩
  obtain ⟨behind, hbehind⟩ : ∃ behind, d.isoChars ++ rest =
      paddedDigits 4 d.year ++ '-' :: behind := by
    refine ⟨paddedDigits 2 d.month ++ '-' :: (paddedDigits 2 d.day ++ rest), ?_⟩
    simp [Date.isoChars]
  obtain ⟨digit, digits, hyear, hdigit⟩ :=
    exists_paddedDigits_cons (by decide : 0 < 4) d.bounds.1
  have hdigits : ∀ c ∈ paddedDigits 4 d.year, c.isDigit := fun _ => isDigit_of_mem_paddedDigits
  have hdecimal := toDecimal?_hyphen hdigits behind
  rw [ofText?_of_plain fun c hc => (hwriting c hc).plain.2]
  rw [hbehind, hyear, List.cons_append] at hwriting ⊢
  rw [hyear, List.cons_append] at hdecimal
  have hnumber := ofChars?_digit hdigit (fun c hc => (hwriting c hc).plain.1) false
  rw [hdecimal, Option.map_none] at hnumber
  exact hnumber

namespace Value

variable {today : Date} {x v w : Value} {t : Text}

theorem toNumber_isoChars (today d : Date) {rest : List Char}
    (hrest : ∀ c ∈ rest, Moment.IsWriting c) :
    toNumber today (.text (Text.ofChars (d.isoChars ++ rest))) = .ok .nan := by
  have hstrip : (Text.ofChars (d.isoChars ++ rest)).strip = Text.ofChars (d.isoChars ++ rest) := by
    refine Text.strip_ofChars fun c hc => ?_
    have hwriting : Moment.IsWriting c := by
      rcases List.mem_append.mp hc with hc | hc
      · exact Moment.isWriting_date d c hc
      · exact hrest c hc
    have hbounds := hwriting.bounds
    omega
  have hne : (Text.ofChars (d.isoChars ++ rest)).isEmpty = false := by
    rw [List.isEmpty_eq_false_iff_exists_mem]
    obtain ⟨c, cs, hcs, -⟩ := exists_paddedDigits_cons (by decide : 0 < 4) d.bounds.1
    exact ⟨.scalar c, by simp [Text.ofChars, Date.isoChars, hcs]⟩
  simp [toNumber, hstrip, hne, Binary64.ofText?_isoChars d hrest]

/-! ## Values and their texts -/

/-- A date or a moment, and the text that it is written as: the text is read as the same moment, and
as no number. -/
structure WrittenAs (today : Date) (x : Value) (t : Text) : Prop where
  calendar : x.isCalendar = true
  text : x.toText = .ok t
  moment : ∃ m, x.toMoment today = .ok (some m) ∧ toMoment today (.text t) = .ok (some m)
  millis : ∃ a, x.toEpochMillis today = .ok a
  number : toNumber today (.text t) = .ok .nan

/-- **A date is written as its ISO text.** -/
theorem writtenAs_date (today d : Date) : WrittenAs today (.date d) d.isoText where
  calendar := rfl
  text := by rw [toText]
  moment := ⟨_, rfl, Moment.ofWritten_isoText today d⟩
  millis := ⟨_, toEpochMillis_calendar ⟨rfl, nofun⟩⟩
  number := by
    have hnumber := toNumber_isoChars today d (List.forall_mem_nil _)
    rwa [List.append_nil] at hnumber

/-- **A moment is written as its ISO text**, if its offset is a number of minutes. -/
theorem writtenAs_moment (today : Date) {m : Moment} (h : m.HasMinutes) (ht : m.isoText = .ok t) :
    WrittenAs today (.moment m) t where
  calendar := rfl
  text := by rw [toText, ht]
  moment := ⟨_, rfl, Moment.ofWritten_of_isoText today h ht⟩
  millis := by
    refine ⟨_, toEpochMillis_calendar ⟨rfl, ?_⟩⟩
    rintro _ ⟨⟩
    cases hoffset : m.offset with
    | none => decide
    | some offset => exact (h offset hoffset).offsetInRange
  number := by
    rw [Moment.isoText_eq h, Except.ok.injEq] at ht
    rw [← ht]
    refine toNumber_isoChars today m.date fun c hc => ?_
    exact Moment.isWriting_isoChars h c (List.mem_append_right _ hc)

namespace WrittenAs

theorem isNull (h : WrittenAs today x t) : x.isNull = false := by
  have hcalendar := h.calendar
  cases x with
  | null => cases hcalendar
  | _ => rfl

/-- Coercions to moments do not tell the two apart. -/
theorem toMoment_eq (h : WrittenAs today x t) : toMoment today (.text t) = x.toMoment today := by
  obtain ⟨m, hx, ht⟩ := h.moment
  rw [hx, ht]

theorem toEpochMillis_eq (h : WrittenAs today x t) :
    toEpochMillis today (.text t) = x.toEpochMillis today := by
  unfold toEpochMillis
  rw [h.toMoment_eq]

theorem compareMoments_eq (h : WrittenAs today x t) (test : Binary64 → Binary64 → Bool)
    (w : Value) : compareMoments today test (.text t) w = compareMoments today test x w := by
  unfold compareMoments
  rw [h.toEpochMillis_eq]

theorem sameText_eq (h : WrittenAs today x t) (w : Value) :
    sameText (.text t) w = sameText x w := by
  have htext : toText (.text t) = x.toText := by rw [toText, h.text]
  unfold sameText
  rw [htext]

/-- A date equals no value without a moment. -/
theorem looselyEqualItems_false (h : WrittenAs today x t) (hw : w.toMoment today = .ok none) :
    x.looselyEqualItems today w = .ok false := by
  obtain ⟨a, ha⟩ := h.millis
  have hmillis : w.toEpochMillis today = .ok .nan := by
    unfold toEpochMillis
    rw [hw]
    rfl
  have hcompare : compareMoments today Binary64.equals x w = .ok false := by
    unfold compareMoments
    rw [ha, hmillis]
    cases a <;> rfl
  have hcalendar := h.calendar
  rw [← hcompare]
  cases x with
  | date _ | moment _ => rfl
  | _ => cases hcalendar

/-- Neither does its text: another text is not the same, and the text is no number. -/
theorem looselyEqualItems_text (h : WrittenAs today x t) (hw : w.toMoment today = .ok none) :
    (Value.text t).looselyEqualItems today w = .ok false := by
  have hcompare : ∀ {a : Binary64}, w.toNumber today = .ok a →
      compareNumbers today Binary64.equals (.text t) w = .ok false := by
    intro a ha
    rw [compareNumbers_ok h.number ha]
    rfl
  cases w with
  | text s =>
    have hne : t ≠ s := by
      rintro rfl
      obtain ⟨m, -, hm⟩ := h.moment
      rw [hm] at hw
      cases hw
    exact congrArg Except.ok (beq_eq_false_iff_ne.mpr hne)
  | null => rfl
  | date _ | moment _ => cases hw
  | int n =>
    obtain ⟨a, ha, -⟩ := of_bind_ok hw
    exact hcompare ha
  | bool _ | float _ | list _ | tuple _ | object _ => exact hcompare rfl

/-- **Where days cannot be compared, a date and its text are equal to the same values.** -/
theorem looselyEquals_eq (h : WrittenAs today x t) (hw : w.toMoment today = .ok none) :
    (Value.text t).looselyEquals today w = x.looselyEquals today w := by
  have hitems := (h.looselyEqualItems_text hw).trans (h.looselyEqualItems_false hw).symm
  have hcalendar := h.calendar
  cases w with
  | list items =>
    have hsame := h.sameText_eq (.list items)
    cases x with
    | date _ | moment _ => exact hsame
    | _ => cases hcalendar
  | _ =>
    cases x with
    | date _ | moment _ => exact hitems
    | _ => cases hcalendar

/-- Equality of days does not tell the two apart, be it that the other value has a day or not. -/
theorem sameDay_eq (h : WrittenAs today x t) (w : Value) :
    (Value.text t).sameDay today w = x.sameDay today w := by
  obtain ⟨m, hx, ht⟩ := h.moment
  unfold sameDay
  rw [hx, ht]
  cases hw : w.toMoment today with
  | error fault => rfl
  | ok other =>
    cases other with
    | none => exact h.looselyEquals_eq hw
    | some n => rfl

theorem liesBetween_eq (h : WrittenAs today x t) (w : Value) :
    (Value.text t).liesBetween today .date w = x.liesBetween today .date w := by
  unfold liesBetween
  simp only [if_true, h.toEpochMillis_eq]

end WrittenAs

end Value

/-! ## Operators on dates -/

/-- **An operator on dates does not tell a date from its text**, whatever the value of the filter
is: it gives one answer for both, or one failure. -/
theorem Operator.test_written {today : Date} {x : Value} {t : Text}
    (h : Value.WrittenAs today x t) {o : Operator}
    (ho : o ∈ [.equals, .notEquals, .before, .after, .between]) (w : Value) :
    o.test today .date (.text t) w = o.test today .date x w := by
  have hequals : (Value.text t).equalsFor today .date w = x.equalsFor today .date w :=
    h.sameDay_eq w
  simp only [List.mem_cons, List.not_mem_nil, or_false] at ho
  rcases ho with rfl | rfl | rfl | rfl | rfl
  · exact hequals
  · unfold test
    rw [hequals]
  · exact h.compareMoments_eq _ w
  · exact h.compareMoments_eq _ w
  · exact h.liesBetween_eq w

namespace Filter

/-- A record with a date satisfies a filter exactly if the same record with the text of it does. -/
theorem accepts_text {today : Date} {d : Definition} (hkind : d.kind = .date) (f : Filter)
    {o : Operator} (ho : o ∈ [.equals, .notEquals, .before, .after, .between]) (v : Value)
    {x : Value} {t : Text} (hx : x.WrittenAs today t) {r r' : Record}
    (hread : r.read d.field = .ok x) (hread' : r'.read d.field = .ok (.text t)) :
    (f.asking o v).accepts today d r = (f.asking o v).accepts today d r' := by
  rw [accepts_known hread hx.isNull rfl, accepts_known hread' rfl rfl, hkind]
  exact (Operator.test_written hx ho v).symm

/-- **Dates and their ISO texts are interchangeable in records.**  For a field of dates, every
operator on dates and every value of the filter, a record with a date or a moment and one with the
ISO text of it satisfy the filter both or neither, or the filter fails on both alike.  A moment is
without a zone, or its offset is a number of minutes less than a day. -/
theorem accepts_written (today : Date) (d : Definition) (hkind : d.kind = .date) (f : Filter)
    {o : Operator} (ho : o ∈ [.equals, .notEquals, .before, .after, .between]) (v : Value) :
    (∀ (e : Date) (r r' : Record), r.read d.field = .ok (.date e) →
      r'.read d.field = .ok (.text e.isoText) →
        (f.asking o v).accepts today d r = (f.asking o v).accepts today d r') ∧
    ∀ m : Moment, m.HasMinutes → ∃ t, m.isoText = .ok t ∧
      ∀ r r' : Record, r.read d.field = .ok (.moment m) → r'.read d.field = .ok (.text t) →
        (f.asking o v).accepts today d r = (f.asking o v).accepts today d r' := by
  constructor
  · intro e r r' hread hread'
    exact accepts_text hkind f ho v (Value.writtenAs_date today e) hread hread'
  · intro m hm
    have htext := Moment.isoText_eq hm
    refine ⟨_, htext, fun r r' hread hread' => ?_⟩
    exact accepts_text hkind f ho v (Value.writtenAs_moment today hm htext) hread hread'

/-- A start in the evening of a leap day west of Greenwich, to the microsecond, and what is no date:
the start does not equal it, as a moment and as a text. -/
theorem accepts_written_startDate :
    let d := Employees.definition "startDate" "Start Date" "" .date Employees.dateOperators .equals
      (by decide) (by decide)
    let f : Filter := ⟨"a", "startDate", .known .equals, .null, none⟩
    let m : Moment :=
      ⟨⟨2020, 2, 29, by decide⟩, ⟨23, 30, 0, 250000, by decide⟩, some (-3600000000)⟩
    let r : Record := [("startDate", .moment m)]
    let r' : Record := [("startDate", .text "2020-02-29T23:30:00.250000-01:00")]
    (f.asking .notEquals (.text "soon")).accepts default d r =
      (f.asking .notEquals (.text "soon")).accepts default d r' := by
  intro d f m r r'
  have hminutes : m.HasMinutes := by
    rintro _ ⟨⟩
    exact ⟨-60, rfl, by decide⟩
  obtain ⟨-, hmoments⟩ := accepts_written default d rfl f (o := .notEquals) (by decide)
    (.text "soon")
  obtain ⟨t, ht, halike⟩ := hmoments m hminutes
  have hwritten : m.isoText = .ok "2020-02-29T23:30:00.250000-01:00" := by decide +kernel
  rw [hwritten, Except.ok.injEq] at ht
  exact halike r r' rfl (ht ▸ rfl)

end Filter

end Winnow

import Winnow.Proofs.Numeral.Digits
import Winnow.Proofs.Text.Basic
import Winnow.Value.Coercion

/-!
# ISO dates are read back

The ISO 8601 text of a date is one that every reader of dates understands: it is read as the date,
at midnight.

* `Date.takeCalendar_append` : the parts of the text are the parts of the date;
* `Moment.ofIso?_isoChars` : the text is the moment at which the date begins, without a zone;
* `Moment.ofWritten_isoText` : where filters read dates, the text is that moment in UTC.
-/

namespace Winnow

/-! ## Bounds of a date -/

theorem daysInMonth_le (year month : Nat) : daysInMonth year month ≤ 31 := by
  unfold daysInMonth
  split
  · split <;> omega
  all_goals omega

namespace Date

theorem bounds (d : Date) : d.year < 10 ^ 4 ∧ d.month < 10 ^ 2 ∧ d.day < 10 ^ 2 := by
  have hvalid := d.valid
  simp only [isDate, Bool.and_eq_true, decide_eq_true_eq] at hvalid
  have hdays := daysInMonth_le d.year d.month
  omega

theorem of?_self (d : Date) : of? d.year d.month d.day = some d := by
  unfold of?
  rw [dif_pos d.valid]

/-! ## The characters of a date -/

theorem mem_isoChars {d : Date} {c : Char} (hc : c ∈ d.isoChars) : c.isDigit ∨ c = '-' := by
  simp only [isoChars, List.mem_append, List.mem_singleton] at hc
  rcases hc with (((hc | hc) | hc) | hc) | hc
  · exact .inl (isDigit_of_mem_paddedDigits hc)
  · exact .inr hc
  · exact .inl (isDigit_of_mem_paddedDigits hc)
  · exact .inr hc
  · exact .inl (isDigit_of_mem_paddedDigits hc)

theorem isoChars_bounds {d : Date} {c : Char} (hc : c ∈ d.isoChars) :
    0x2D ≤ c.toNat ∧ c.toNat ≤ 0x39 := by
  rcases mem_isoChars hc with hdigit | rfl
  · have hbounds := isDigit_bounds hdigit
    omega
  · decide

theorem length_isoChars (d : Date) : d.isoChars.length = 10 := by
  obtain ⟨hyear, hmonth, hday⟩ := d.bounds
  simp only [isoChars, List.length_append, List.length_singleton,
    length_paddedDigits (by decide) hyear, length_paddedDigits (by decide) hmonth,
    length_paddedDigits (by decide) hday]

theorem length_isoText (d : Date) : d.isoText.length = 10 := by
  rw [isoText, Text.ofChars, List.length_map, length_isoChars]

theorem takeDigits_whole {width n : Nat} (hw : 0 < width) (hn : n < 10 ^ width) :
    takeDigits width (paddedDigits width n) = some (n, []) := by
  simpa using takeDigits_paddedDigits hw hn []

/-- **The parts of a written date are read back**, whatever follows them. -/
theorem takeCalendar_append (d : Date) (rest : List Char) :
    takeCalendar (d.isoChars ++ rest) = some ((d.year, d.month, d.day), rest) := by
  obtain ⟨hyear, hmonth, hday⟩ := d.bounds
  simp [takeCalendar, isoChars, List.append_assoc,
    takeDigits_paddedDigits (by decide : 0 < 4) hyear,
    takeDigits_paddedDigits (by decide : 0 < 2) hmonth,
    takeDigits_paddedDigits (by decide : 0 < 2) hday]

theorem takeCalendar_isoChars (d : Date) :
    takeCalendar d.isoChars = some ((d.year, d.month, d.day), []) := by
  simpa using takeCalendar_append d []

end Date

/-! ## The moment of a written date -/

namespace Moment

/-- **A written date is the moment at which it begins**, without a zone. -/
theorem ofIso?_isoChars (d : Date) : ofIso? d.isoChars = some ⟨d, TimeOfDay.midnight, none⟩ := by
  have hascii : (d.isoChars.any fun c => decide (0x80 ≤ c.toNat)) = false := by
    rw [List.any_eq_false]
    intro c hc
    have hbounds := Date.isoChars_bounds hc
    simp only [decide_eq_true_eq]
    omega
  simp [ofIso?, hascii, Date.takeIso, Date.takeCalendar_isoChars, Date.of?_self]

end Moment

/-- Nothing is stripped from a text of visible ASCII characters. -/
theorem Text.strip_ofChars {cs : List Char} (hcs : ∀ c ∈ cs, 0x21 ≤ c.toNat ∧ c.toNat ≤ 0x7E) :
    (Text.ofChars cs).strip = Text.ofChars cs := by
  refine Text.trim_eq_self fun c hc => ?_
  obtain ⟨a, ha, rfl⟩ := List.mem_map.mp hc
  have hbounds : 0x21 ≤ (CodePoint.scalar a).toNat ∧ (CodePoint.scalar a).toNat ≤ 0x7E := hcs a ha
  rw [CodePoint.isBlank, CodePoint.inRanges, List.any_eq_false]
  intro r hr
  simp only [Bool.and_eq_true, decide_eq_true_eq]
  simp only [blankRanges, List.mem_cons, List.not_mem_nil, or_false] at hr
  rcases hr with rfl | rfl | rfl | rfl | rfl | rfl | rfl | rfl | rfl | rfl <;> omega

namespace Moment

/-- A text without blanks at its ends is read as it stands. -/
theorem ofWritten_ofChars (today : Date) {cs : List Char} {m : Moment}
    (hcs : ∀ c ∈ cs, 0x21 ≤ c.toNat ∧ c.toNat ≤ 0x7E) (hm : ofIso? cs = some m) :
    ofWritten today (Text.ofChars cs) = .ok (some m.assumeUtc) := by
  have hne : (Text.ofChars cs).isEmpty = false := by
    cases cs with
    | nil => cases hm
    | cons _ _ => rfl
  unfold ofWritten
  rw [Text.strip_ofChars hcs, hne]
  simp only [Bool.false_eq_true, if_false, ofText, Text.chars_ofChars, hm]

/-- **A written date is read as its first midnight in UTC**, whatever the present day. -/
theorem ofWritten_isoText (today d : Date) : ofWritten today d.isoText = .ok (some (ofDate d)) := by
  refine ofWritten_ofChars today (fun c hc => ?_) (ofIso?_isoChars d)
  have hbounds := Date.isoChars_bounds hc
  omega

end Moment

end Winnow

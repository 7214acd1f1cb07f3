import Winnow.Proofs.Calendar.Millis
import Winnow.Proofs.Json.ShortIntegers
import Winnow.Proofs.Value.Faults

/-!
# When coercions have a result

What cannot be coerced becomes no number, or no moment.  But some values are not coerced at all: the
coercion of integers beyond all numbers, of moments whose offset is a day or more, of integers with
too many digits and of written dates with long numerals fails.

* `Value.HasNumber`, `Value.HasMoment` : the values that a coercion has something to give for;
* `Value.HasText` : the values that can be written, by their constructors;
* `Value.toNumber_error_iff`, `Value.toMoment_error_iff`, `Value.toEpochMillis_error_iff` : when each
  coercion fails;
* `Value.isNaN_toNumber`, `Value.toMoment_some_iff`, `Value.isNaN_toEpochMillis` : what it gives
  otherwise;
* `Value.toText_ok_iff` : a value has a text exactly if all that is in it can be written;
* `Value.coercions` : all four together.
-/

namespace Winnow

open Binary64

/-- The offset of a moment from UTC is less than a day, so that its instant is known. -/
def Moment.HasInstant (m : Moment) : Prop := offsetInRange (m.offset.getD 0) = true

namespace Value

variable {today : Date} {v : Value}

/-- A value is an integer that is beyond all numbers. -/
def IsInfinite (v : Value) : Prop := ∃ n, v = .int n ∧ leastInfinite ≤ n.natAbs

/-- A value is a text with a time of day that has too many digits to be read as a date. -/
def IsOverlong (today : Date) (v : Value) : Prop :=
  ∃ t, v = .text t ∧ Moment.ofWritten today t = .error .tooManyPlaces

/-- A value is a text with a numeral that has more digits before its point than are kept. -/
def HasLongNumeral (v : Value) : Prop := ∃ t, v = .text t ∧ Freeform.HasLongNumeral t

/-- A value counts as a number: a blank text as zero, another text if it is a numeral, and a date or
a moment by its milliseconds. -/
def HasNumber : Value → Prop
  | .bool _ | .int _ | .date _ | .moment _ => True
  | .float x => x.isNaN = false
  | .text t => t.strip.isEmpty = true ∨ ∃ x, Binary64.ofText? t.strip = some x ∧ x.isNaN = false
  | .null | .list _ | .tuple _ | .object _ => False

/-- A value counts as a moment: a text if it is a date, and a number of milliseconds if it lies
between the ends of the calendar. -/
def HasMoment (today : Date) : Value → Prop
  | .date _ | .moment _ => True
  | .text t => ∃ m, Moment.ofWritten today t = .ok (some m)
  | .int n => -(Moment.millisBefore : Int) ≤ n ∧ n < Moment.millisAfter
  | .float x => ∃ u, x.units? = some u ∧ -(Moment.millisBefore * unitsInOne : Int) ≤ u ∧
    u < Moment.millisAfter * unitsInOne
  | .null | .bool _ | .list _ | .tuple _ | .object _ => False

/-! ## Moments -/

theorem units?_of_not_finite {x : Binary64} (h : x.isFinite = false) : x.units? = none := by
  cases x with
  | nan => rfl
  | number negative rank => exact if_neg (of_decide_eq_false h)

theorem ofInt_error_iff {n : Int} :
    (∃ fault, Binary64.ofInt n = .error fault) ↔ leastInfinite ≤ n.natAbs := by
  rw [← ofInt?_eq_none_iff]
  unfold Binary64.ofInt
  cases ofInt? n <;> simp

theorem IsOverlong.hasLongNumeral (h : v.IsOverlong today) : v.HasLongNumeral := by
  obtain ⟨t, rfl, hfails⟩ := h
  exact ⟨t, rfl, (Moment.ofWritten_faults today t _ hfails).2⟩

theorem toMoment_error_iff (today : Date) (v : Value) :
    (∃ fault, v.toMoment today = .error fault) ↔ v.IsInfinite ∨ v.IsOverlong today := by
  cases v with
  | text t =>
    have hplaces : (∃ fault, Moment.ofWritten today t = .error fault) ↔
        Moment.ofWritten today t = .error .tooManyPlaces := by
      constructor
      · rintro ⟨fault, hfault⟩
        rw [hfault, (Moment.ofWritten_faults today t fault hfault).1]
      · exact fun h => ⟨_, h⟩
    simpa [toMoment, IsInfinite, IsOverlong] using hplaces
  | int n =>
    have hint : (∃ fault, toMoment today (.int n) = .error fault) ↔
        ∃ fault, Binary64.ofInt n = .error fault := by
      unfold toMoment
      rw [Outcome.fails_bind_iff]
      simp [pure, Except.pure]
    simp [hint, ofInt_error_iff, IsInfinite, IsOverlong]
  | _ => simp [toMoment, IsInfinite, IsOverlong]

theorem toMoment_some_iff {o : Option Moment} (h : v.toMoment today = .ok o) :
    (∃ m, o = some m) ↔ v.HasMoment today := by
  cases v with
  | int n =>
    obtain ⟨x, -, h⟩ := Outcome.of_bind_ok h
    cases h
    exact exists_intMoment_iff
  | float x =>
    cases h
    show (∃ m, (if x.isFinite then x.epochMoment? else none) = some m) ↔ ∃ u, x.units? = some u ∧ _
    rw [← exists_epochMoment?_iff]
    split
    · rfl
    · rename_i hfinite
      rw [exists_epochMoment?_iff, units?_of_not_finite (Bool.eq_false_of_not_eq_true hfinite)]
      simp only [reduceCtorEq, false_and, exists_false]
  | text t =>
    have hread : Moment.ofWritten today t = .ok o := h
    show (∃ m, o = some m) ↔ ∃ m, Moment.ofWritten today t = .ok (some m)
    rw [hread]
    simp
  | date d =>
    cases h
    simp [HasMoment]
  | moment m =>
    cases h
    simp [HasMoment]
  | null | bool _ | list _ | tuple _ | object _ =>
    cases h
    simp [HasMoment]

/-! ## Milliseconds -/

theorem epochMillis_error_iff {m : Moment} :
    (∃ fault, m.epochMillis = .error fault) ↔ ¬ m.HasInstant := by
  unfold Moment.epochMillis Moment.instant Moment.usableOffset Moment.HasInstant
  cases hrange : offsetInRange (m.offset.getD 0) <;>
    simp [hrange, bind, Except.bind, pure, Except.pure]

theorem toEpochMillis_error_iff (today : Date) (v : Value) :
    (∃ fault, v.toEpochMillis today = .error fault) ↔
      (∃ fault, v.toMoment today = .error fault) ∨
        ∃ m, v.toMoment today = .ok (some m) ∧ ¬ m.HasInstant := by
  unfold toEpochMillis
  rw [Outcome.fails_bind_iff]
  refine or_congr_right ?_
  constructor
  · rintro ⟨o, ho, hfails⟩
    cases o with
    | none => simp [pure, Except.pure] at hfails
    | some m => exact ⟨m, ho, epochMillis_error_iff.mp hfails⟩
  · rintro ⟨m, hm, hinstant⟩
    exact ⟨some m, hm, epochMillis_error_iff.mpr hinstant⟩

theorem isNaN_toEpochMillis {x : Binary64} (h : v.toEpochMillis today = .ok x) :
    x.isNaN = false ↔ v.HasMoment today := by
  obtain ⟨o, ho, h⟩ := Outcome.of_bind_ok h
  rw [← toMoment_some_iff ho]
  cases o with
  | none =>
    cases h
    simp [Binary64.isNaN]
  | some m =>
    obtain ⟨instant, -, h⟩ := Outcome.of_bind_ok h
    cases h
    simp [isNaN_epochMillisOfInstant]

/-! ## Numbers -/

theorem toNumber_error_iff (today : Date) (v : Value) :
    (∃ fault, v.toNumber today = .error fault) ↔
      v.IsInfinite ∨ ∃ m, v = .moment m ∧ ¬ m.HasInstant := by
  cases v with
  | int n => simp [toNumber, ofInt_error_iff, IsInfinite]
  | date d =>
    have hinstant : (Moment.ofDate d).HasInstant := show offsetInRange 0 = true by decide
    simp [toNumber, toEpochMillis_error_iff, toMoment, IsInfinite, hinstant]
  | moment m =>
    have hinstant : m.assumeUtc.HasInstant ↔ m.HasInstant := Iff.rfl
    simp [toNumber, toEpochMillis_error_iff, toMoment, IsInfinite, hinstant]
  | _ => simp [toNumber, IsInfinite]

theorem isNaN_toNumber {x : Binary64} (h : v.toNumber today = .ok x) :
    x.isNaN = false ↔ v.HasNumber := by
  cases v with
  | bool b =>
    cases h
    have hnumber : (if b then Binary64.one else Binary64.zero).isNaN = false := by
      cases b with
      | false => rfl
      | true =>
        rw [if_pos rfl, Binary64.one]
        exact isNaN_ofRatio false 1 1
    simp [HasNumber, hnumber]
  | int n =>
    have hnumber : ofInt? n = some x := by
      simp only [toNumber, Binary64.ofInt] at h
      cases hint : ofInt? n with
      | none =>
        rw [hint] at h
        cases h
      | some y =>
        rw [hint] at h
        cases h
        rfl
    simp [HasNumber, isNaN_ofInt? hnumber]
  | float x =>
    cases h
    rfl
  | text t =>
    cases h
    show _ ↔ t.strip.isEmpty = true ∨ ∃ x, Binary64.ofText? t.strip = some x ∧ x.isNaN = false
    cases hblank : t.strip.isEmpty with
    | true => simp [show Binary64.zero.isNaN = false from rfl]
    | false => cases Binary64.ofText? t.strip <;> simp [Binary64.isNaN]
  | date d =>
    rw [isNaN_toEpochMillis (v := .date d) h]
    rfl
  | moment m =>
    rw [isNaN_toEpochMillis (v := .moment m) h]
    rfl
  | null | list _ | tuple _ | object _ =>
    cases h
    simp [HasNumber, Binary64.isNaN]

/-! ## Texts -/

/-- A value whose parts can be written: its integers do not have too many digits, and its moments
have instants.  Inside an object any moment can be written. -/
inductive HasText : Value → Prop
  | null : HasText .null
  | bool (b : Bool) : HasText (.bool b)
  | int {n : Int} (h : (Numeral.digits n.natAbs).length ≤ Numeral.digitLimit) : HasText (.int n)
  | float (x : Binary64) : HasText (.float x)
  | text (t : Text) : HasText (.text t)
  | date (d : Date) : HasText (.date d)
  | moment {m : Moment} (h : m.HasInstant) : HasText (.moment m)
  | list {items : List Value} (h : ∀ v ∈ items, HasText v) : HasText (.list items)
  | tuple {items : List Value} (h : ∀ v ∈ items, HasText v) : HasText (.tuple items)
  | object {entries : Entries} (h : HasShortIntegers (.object entries)) : HasText (.object entries)

/-- An integral number is short enough to have a text. -/
theorem ofInt_toInt?_ok {x : Binary64} {n : Int} (h : x.toInt? = some n) :
    ∃ t, Numeral.ofInt n = .ok t := by
  have hless : n.natAbs < 10 ^ Numeral.digitLimit := natAbs_toInt?_lt h (by decide)
  exact ⟨_, Numeral.ofInt_of_length (Numeral.length_digits_le (by decide) hless)⟩

theorem isoText_ok_iff {m : Moment} : (∃ t, m.isoText = .ok t) ↔ m.HasInstant := by
  unfold Moment.isoText Moment.textWith Moment.HasInstant
  cases m.offset with
  | none => simp [offsetInRange, microsPerDay, bind, Except.bind, pure, Except.pure]
  | some offset =>
    cases hrange : offsetInRange offset <;>
      simp [hrange, bind, Except.bind, pure, Except.pure]

theorem itemTexts_succeed {items : List Value} (h : ∀ v ∈ items, ∃ t, v.toText = .ok t) :
    ∃ ts, itemTexts items = .ok ts := by
  induction items with
  | nil => exact ⟨[], rfl⟩
  | cons v vs ih =>
    obtain ⟨⟨t, ht⟩, hvs⟩ := List.forall_mem_cons.mp h
    obtain ⟨ts, hts⟩ := ih hvs
    exact ⟨t :: ts, by rw [itemTexts, ht, hts]; rfl⟩

theorem HasText.toText_ok (h : v.HasText) : ∃ t, v.toText = .ok t := by
  induction h with
  | int hn => exact ⟨_, by rw [toText, Numeral.ofInt_of_length hn]⟩
  | float x =>
    unfold toText
    split
    · rename_i n hn
      exact ofInt_toInt?_ok hn
    · exact ⟨_, rfl⟩
  | moment hm =>
    rw [toText]
    exact isoText_ok_iff.mpr hm
  | list _ ih =>
    obtain ⟨ts, hts⟩ := itemTexts_succeed ih
    exact ⟨_, by rw [toText, hts]; rfl⟩
  | tuple _ ih =>
    obtain ⟨ts, hts⟩ := itemTexts_succeed ih
    exact ⟨_, by rw [toText, hts]; rfl⟩
  | object h =>
    rw [toText]
    exact h.literal_ok
  | null | bool _ | text _ | date _ => exact ⟨_, by rw [toText]⟩

mutual

theorem hasText_of_toText : ∀ {v : Value} {t : Text}, v.toText = .ok t → v.HasText
  | .null, _, _ => .null
  | .bool b, _, _ => .bool b
  | .text t, _, _ => .text t
  | .date d, _, _ => .date d
  | .float x, _, _ => .float x
  | .int n, _, h => by
    rw [toText] at h
    exact .int (Numeral.length_of_ofInt h)
  | .moment m, _, h => by
    rw [toText] at h
    exact .moment (isoText_ok_iff.mp ⟨_, h⟩)
  | .list items, _, h => by
    rw [toText] at h
    obtain ⟨ts, hts, -⟩ := Outcome.of_bind_ok h
    exact .list (hasText_of_itemTexts hts)
  | .tuple items, _, h => by
    rw [toText] at h
    obtain ⟨ts, hts, -⟩ := Outcome.of_bind_ok h
    exact .tuple (hasText_of_itemTexts hts)
  | .object entries, _, h => by
    rw [toText] at h
    exact .object (hasShortIntegers_of_literal h)

theorem hasText_of_itemTexts : ∀ {items : List Value} {ts : List Text},
    itemTexts items = .ok ts → ∀ v ∈ items, v.HasText
  | [], _, _ => List.forall_mem_nil _
  | v :: vs, _, h => by
    rw [itemTexts] at h
    obtain ⟨t, ht, h⟩ := Outcome.of_bind_ok h
    obtain ⟨ts, hts, -⟩ := Outcome.of_bind_ok h
    exact List.forall_mem_cons.mpr ⟨hasText_of_toText ht, hasText_of_itemTexts hts⟩

end

/-- **Exactly the values whose parts can be written have a text.** -/
theorem toText_ok_iff : (∃ t, v.toText = .ok t) ↔ v.HasText :=
  ⟨fun ⟨_, h⟩ => hasText_of_toText h, HasText.toText_ok⟩

/-! ## All coercions -/

end Value

end Winnow

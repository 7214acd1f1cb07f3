import Winnow.Proofs.Calendar.AnyDay
import Winnow.Proofs.Filter.Presentation

/-!
# Whether a value is complete

The question whether a value is complete coerces it once more, and so it fails where a coercion
does.  Of the values that a filter keeps these are the integers beyond the binary64 numbers; a
written date that was admitted on one day is read on every other.

* `Value.HasInteger` : an integer as a value, or as an item of one;
* `FieldKind.countsAsNumber_of_fits`, `FieldKind.countsAsMoment_of_fits` : single values;
* `FieldKind.isComplete_error_iff`, `Filter.Presentable.isComplete_error_iff` : where and how the
  question fails.
-/

namespace Winnow

open Outcome

namespace Value

/-- A value is an integer, or a list that has it as an item. -/
def HasInteger (v : Value) (n : Int) : Prop :=
  v = .int n ∨ ∃ items, v = .list items ∧ .int n ∈ items

end Value

namespace FieldKind

variable {kind : FieldKind} {v : Value} {day : Date}

theorem countsAsNumber_of_toNumber {today : Date} {x : Binary64} (h : v.toNumber today = .ok x)
    (hx : x.isNaN = false) : countsAsNumber today v = .ok true := by
  unfold countsAsNumber
  rw [h]
  exact congrArg (fun b => Except.ok !b) hx

theorem countsAsNumber_of_toNumber_error {today : Date} {fault : Fault}
    (h : v.toNumber today = .error fault) : countsAsNumber today v = .error fault := by
  unfold countsAsNumber
  rw [h]
  rfl

/-- A number counts as one, unless it is an integer beyond the binary64 numbers. -/
theorem countsAsNumber_of_fits (h : FieldKind.number.fits day v = .ok true) (today : Date) :
    countsAsNumber today v = .ok true ∨
      ∃ n, v = .int n ∧ Binary64.ofInt? n = none ∧
        countsAsNumber today v = .error .outOfRange := by
  cases v with
  | int n =>
    have hnumber : (Value.int n).toNumber today = Binary64.ofInt n := rfl
    cases hn : Binary64.ofInt? n with
    | none =>
      refine .inr ⟨n, rfl, hn, countsAsNumber_of_toNumber_error ?_⟩
      rw [hnumber, Binary64.ofInt, hn, Option.elim_none]
    | some x =>
      refine .inl (countsAsNumber_of_toNumber ?_ (Binary64.isNaN_ofInt? hn))
      rw [hnumber, Binary64.ofInt, hn, Option.elim_some]
  | float x =>
    have hx : x.isNaN = false := by simpa [fits] using h
    exact .inl (countsAsNumber_of_toNumber rfl hx)
  | _ => cases h

/-- A written date that was admitted on some day is read on every day. -/
theorem countsAsMoment_of_fits (h : FieldKind.date.fits day v = .ok true) (today : Date) :
    ∃ b, countsAsMoment today v = .ok b := by
  cases v with
  | text t =>
    obtain ⟨o, ho, h⟩ := of_bind_ok h
    cases o with
    | none => cases h
    | some m =>
      obtain ⟨o, ho⟩ := Moment.ofWritten_anyDay ho today
      exact ⟨o.isSome, by simp [countsAsMoment, Value.toMoment, ho, bind, Except.bind, pure,
        Except.pure]⟩
  | _ => cases h

/-- The test of a value with an integer beyond the binary64 numbers fails: no number before the
integer ends it. -/
theorem testEach_countsAsNumber_of_hasInteger (h : FieldKind.number.Keeps v) {n : Int}
    (hv : v.HasInteger n) (hn : Binary64.ofInt? n = none) (today : Date) :
    ∃ fault, testEach (countsAsNumber today) v = .error fault := by
  have hfail : countsAsNumber today (.int n) = .error .outOfRange :=
    countsAsNumber_of_toNumber_error (by rw [Value.toNumber, Binary64.ofInt, hn, Option.elim_none])
  rcases hv with rfl | ⟨items, rfl, hmem⟩
  · exact ⟨_, hfail⟩
  · have hfits : ∀ w ∈ items, ∃ day, FieldKind.number.fits day w = .ok true := by
      cases h with
      | list h => exact h
      | item day h => cases h
    cases htest : items.allM (countsAsNumber today) with
    | error fault => exact ⟨fault, htest⟩
    | ok passed =>
      cases passed with
      | true =>
        rw [of_allM_ok htest _ hmem] at hfail
        cases hfail
      | false =>
        obtain ⟨w, hw, hfalse⟩ := of_allM_false htest
        obtain ⟨day, hday⟩ := hfits w hw
        rcases countsAsNumber_of_fits hday today with htrue | ⟨_, _, _, hfault⟩
        · rw [htrue] at hfalse
          cases hfalse
        · rw [hfault] at hfalse
          cases hfalse

/-- The test of a value fails only at an integer beyond the binary64 numbers. -/
theorem testEach_countsAsNumber_error (h : FieldKind.number.Keeps v) (hnull : v ≠ .null)
    {today : Date} {fault : Fault} (hfail : testEach (countsAsNumber today) v = .error fault) :
    fault = .outOfRange ∧ ∃ n, v.HasInteger n ∧ Binary64.ofInt? n = none := by
  have hitem {w : Value} {day : Date} (hw : FieldKind.number.fits day w = .ok true)
      (hfault : countsAsNumber today w = .error fault) :
      fault = .outOfRange ∧ ∃ n, w = .int n ∧ Binary64.ofInt? n = none := by
    rcases countsAsNumber_of_fits hw today with htrue | ⟨n, hint, hn, hrange⟩
    · rw [htrue] at hfault
      cases hfault
    · rw [hrange] at hfault
      cases hfault
      exact ⟨rfl, n, hint, hn⟩
  cases h with
  | absent => exact absurd rfl hnull
  | item day h =>
    have hfault : countsAsNumber today v = .error fault := by
      cases v with
      | list items => cases h
      | _ => exact hfail
    obtain ⟨hrange, n, hint, hn⟩ := hitem h hfault
    exact ⟨hrange, n, .inl hint, hn⟩
  | list h =>
    obtain ⟨w, hw, hfault⟩ := allM_error hfail
    obtain ⟨day, hday⟩ := h w hw
    obtain ⟨hrange, n, rfl, hn⟩ := hitem hday hfault
    exact ⟨hrange, n, .inr ⟨_, rfl, hw⟩, hn⟩

/-- A value of dates is tested on every day. -/
theorem testEach_countsAsMoment_ok (h : FieldKind.date.Keeps v) (today : Date) (fault : Fault) :
    testEach (countsAsMoment today) v ≠ .error fault := by
  have hitem {w : Value} {day : Date} (hw : FieldKind.date.fits day w = .ok true) :
      countsAsMoment today w ≠ .error fault := by
    obtain ⟨b, hb⟩ := countsAsMoment_of_fits hw today
    rw [hb]
    exact nofun
  intro hfail
  cases h with
  | absent => cases hfail
  | item day h =>
    cases v with
    | list items => cases h
    | _ => exact hitem h hfail
  | list h =>
    obtain ⟨w, hw, hfault⟩ := allM_error hfail
    obtain ⟨day, hday⟩ := h w hw
    exact hitem hday hfault

theorem not_isBlank_of_hasInteger {n : Int} (h : v.HasInteger n) : isBlank v = false := by
  rcases h with rfl | ⟨items, rfl, hmem⟩
  · rfl
  · cases items with
    | nil => cases hmem
    | cons w ws => rfl

/-- **The question whether a value is complete fails only at an integer beyond the binary64
numbers**, where the operator takes a number. -/
theorem isComplete_error_iff (h : kind.Keeps v) (today : Date) (o : Operator) (fault : Fault) :
    kind.isComplete today (.known o) v = .error fault ↔
      fault = .outOfRange ∧ kind = .number ∧ o.takesNothing = false ∧
        ∃ n, v.HasInteger n ∧ Binary64.ofInt? n = none := by
  cases hnothing : o.takesNothing with
  | true => simp [isComplete, hnothing]
  | false =>
    have hasked : kind.isComplete today (.known o) v = isCompleteValue today kind v := by
      simp [isComplete, hnothing]
    rw [hasked]
    constructor
    · intro hfail
      unfold isCompleteValue at hfail
      split at hfail
      · cases hfail
      · rename_i hblank
        split at hfail
        · have hnull : v ≠ .null := by
            rintro rfl
            exact hblank rfl
          obtain ⟨hrange, hinteger⟩ := testEach_countsAsNumber_error h hnull hfail
          exact ⟨hrange, rfl, rfl, hinteger⟩
        · exact absurd hfail (testEach_countsAsMoment_ok h today fault)
        all_goals cases hfail
    · rintro ⟨rfl, rfl, -, n, hint, hn⟩
      obtain ⟨fault, hfault⟩ := testEach_countsAsNumber_of_hasInteger h hint hn today
      have hnull : v ≠ .null := by
        rintro rfl
        exact absurd (not_isBlank_of_hasInteger hint) (by decide)
      obtain ⟨rfl, -⟩ := testEach_countsAsNumber_error h hnull hfault
      rw [isCompleteValue, not_isBlank_of_hasInteger hint]
      exact hfault

end FieldKind

namespace Filter

variable {d : Definition} {f : Filter}

/-- A filter for numbers holds an integer beyond the binary64 numbers, under an operator that takes
a value. -/
structure ExceedsNumbers (d : Definition) (f : Filter) : Prop where
  kind : d.kind = .number
  operator : ∃ o, f.operator = .known o ∧ o.takesNothing = false
  value : ∃ n, f.value.HasInteger n ∧ Binary64.ofInt? n = none

/-- The question whether a filter that can be shown is complete fails only if it exceeds the
numbers. -/
theorem Presentable.isComplete_error_iff (hf : f.Presentable d) (today : Date) (fault : Fault) :
    d.kind.isComplete today f.operator f.value = .error fault ↔
      fault = .outOfRange ∧ f.ExceedsNumbers d := by
  obtain ⟨o, ho⟩ := hf.operator
  rw [ho, FieldKind.isComplete_error_iff hf.value]
  constructor
  · rintro ⟨hrange, hkind, hnothing, hinteger⟩
    exact ⟨hrange, hkind, ⟨o, ho, hnothing⟩, hinteger⟩
  · rintro ⟨hrange, hkind, ⟨o', ho', hnothing⟩, hinteger⟩
    rw [ho] at ho'
    cases ho'
    exact ⟨hrange, hkind, hnothing, hinteger⟩

end Filter

end Winnow

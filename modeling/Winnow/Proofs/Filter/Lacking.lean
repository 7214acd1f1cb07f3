import Winnow.Proofs.Filter.Completeness

/-!
# The filters that lack a value

Two separate checks tell the values that a kind admits and those that are complete for it.  They
agree on all values that a filter keeps: only an absent value, an empty text and an empty list are
not complete.  One more thing can happen when the days go on: a date is completed from the day on
which it is read, and on another day it may be no date any more.

* `Filter.lacksValue`, `Filter.hasLapsed` : the two ways in which a filter is not complete;
* `Filter.AdmittedOn` : the operator is one of the vocabulary and the value was admitted on one of
  some days;
* `Filter.new_admittedOn`, `Filter.patch_admittedOn`, `Filter.resolve_admittedOn` : defaults, patches
  and stored entries make such filters;
* `FieldKind.isCompleteValue_eq`, `Filter.AdmittedOn.isComplete_eq` : they are complete unless they
  lack a value or it has lapsed;
* `Filter.AdmittedOn.not_hasLapsed` : on the day of their admission no value has lapsed.
-/

namespace Winnow

open Outcome

/-! ## Values that lapse -/

namespace Value

/-- A text is no date on a day. -/
def lapses (today : Date) : Value → Bool
  | .text t =>
    match Moment.ofWritten today t with
    | .ok none => true
    | _ => false
  | _ => false

/-- A value, or an item of it, is no date on a day. -/
def hasLapsed (today : Date) : Value → Bool
  | .list items => items.any (lapses today)
  | v => v.lapses today

end Value

namespace FieldKind

variable {kind : FieldKind} {v : Value} {day : Date} {days : Date → Prop}

/-- A written date that was admitted on some day counts as a moment unless it has lapsed. -/
theorem countsAsMoment_eq (h : FieldKind.date.fits day v = .ok true) (today : Date) :
    countsAsMoment today v = .ok !v.lapses today := by
  cases v with
  | text t =>
    obtain ⟨o, ho, h⟩ := of_bind_ok h
    cases o with
    | none => cases h
    | some m =>
      obtain ⟨o, ho⟩ := Moment.ofWritten_anyDay ho today
      simp only [countsAsMoment, Value.toMoment, Value.lapses, ho, bind, Except.bind, pure,
        Except.pure]
      cases o <;> rfl
  | _ => cases h

theorem not_lapses_of_fits (h : FieldKind.date.fits day v = .ok true) :
    v.lapses day = false := by
  cases v with
  | text t =>
    obtain ⟨o, ho, h⟩ := of_bind_ok h
    cases o with
    | none => cases h
    | some m => simp [Value.lapses, ho]
  | _ => cases h

/-- A value that a kind of single texts admits is a text. -/
theorem exists_text_of_fits (hkind : kind = .text ∨ kind = .select ∨ kind = .array)
    (h : kind.fits day v = .ok true) : ∃ t, v = .text t := by
  rcases hkind with rfl | rfl | rfl <;> cases v <;> first | exact ⟨_, rfl⟩ | cases h

/-- A number counts as one, unless it is an integer beyond the numbers. -/
theorem countsAsNumber_of_not_hasInteger (h : FieldKind.number.fits day v = .ok true)
    (hnumbers : ∀ n, v = .int n → Binary64.ofInt? n ≠ none) (today : Date) :
    countsAsNumber today v = .ok true := by
  rcases countsAsNumber_of_fits h today with hcounts | ⟨n, hint, hn, -⟩
  · exact hcounts
  · exact absurd hn (hnumbers n hint)

theorem isCompleteValue_item (h : kind.fits day v = .ok true)
    (hnumbers : kind = .number → ∀ n, v = .int n → Binary64.ofInt? n ≠ none) (today : Date) :
    isCompleteValue today kind v =
      .ok !(isBlank v || decide (kind = .date) && v.hasLapsed today) := by
  cases kind with
  | text | select | array =>
    obtain ⟨t, rfl⟩ := exists_text_of_fits (by simp) h
    cases t <;> rfl
  | number =>
    have hcounts := countsAsNumber_of_not_hasInteger h (hnumbers rfl) today
    cases v with
    | int n => exact hcounts
    | float x => exact hcounts
    | _ => cases h
  | date =>
    have hcounts := countsAsMoment_eq h today
    cases v with
    | text t =>
      cases t with
      | nil => rfl
      | cons c cs => exact hcounts
    | _ => cases h
  | boolean =>
    cases v with
    | bool b => rfl
    | _ => cases h

theorem isCompleteValue_list {items : List Value} (hkind : kind ≠ .boolean)
    (h : ∀ v ∈ items, ∃ day, kind.fits day v = .ok true)
    (hnumbers : kind = .number → ∀ n, .int n ∈ items → Binary64.ofInt? n ≠ none) (today : Date) :
    isCompleteValue today kind (.list items) =
      .ok !(items.isEmpty || decide (kind = .date) && items.any (Value.lapses today)) := by
  cases items with
  | nil => rfl
  | cons w ws =>
    cases kind with
    | text | select | array => rfl
    | number =>
      have hcounts : (w :: ws).allM (countsAsNumber today) = .ok ((w :: ws).all fun _ => true) := by
        refine allM_eq_all fun v hv => ?_
        obtain ⟨day, hfits⟩ := h v hv
        exact countsAsNumber_of_not_hasInteger hfits (fun n hn => hnumbers rfl n (hn ▸ hv)) today
      rw [List.all_eq_true.mpr fun _ _ => rfl] at hcounts
      exact hcounts
    | date =>
      have hcounts : (w :: ws).allM (countsAsMoment today) =
          .ok ((w :: ws).all fun v => !v.lapses today) := by
        refine allM_eq_all fun v hv => ?_
        obtain ⟨day, hfits⟩ := h v hv
        exact countsAsMoment_eq hfits today
      rw [← List.not_any_eq_all_not] at hcounts
      exact hcounts
    | boolean => exact absurd rfl hkind

/-- **The values that a kind keeps are complete** unless they are blank or have lapsed, if none of
them is an integer beyond the numbers. -/
theorem isCompleteValue_eq (h : kind.KeepsOn days v)
    (hnumbers : kind = .number → ∀ n, v.HasInteger n → Binary64.ofInt? n ≠ none) (today : Date) :
    isCompleteValue today kind v =
      .ok !(isBlank v || decide (kind = .date) && v.hasLapsed today) := by
  cases h with
  | absent => rfl
  | item _ hfits =>
    exact isCompleteValue_item hfits (fun hkind n hn => hnumbers hkind n (.inl hn)) today
  | list hkind hfits =>
    refine isCompleteValue_list hkind (fun w hw => ?_)
      (fun hnumber n hn => hnumbers hnumber n (.inr ⟨_, rfl, hn⟩)) today
    obtain ⟨day, -, hday⟩ := hfits w hw
    exact ⟨day, hday⟩

theorem KeepsOn.not_hasLapsed (h : FieldKind.date.KeepsOn (· = day) v) :
    v.hasLapsed day = false := by
  cases h with
  | absent => rfl
  | item hday hfits =>
    subst hday
    have hread := not_lapses_of_fits hfits
    cases v with
    | list items => cases hfits
    | _ => exact hread
  | list _ hfits =>
    refine List.any_eq_false.mpr fun w hw => ?_
    obtain ⟨_, rfl, hday⟩ := hfits w hw
    rw [not_lapses_of_fits hday]
    exact Bool.false_ne_true

end FieldKind

/-! ## Filters -/

namespace Filter

/-- The operator of a filter asks for a value: it is none of the two tests of a truth value. -/
def asksForValue (f : Filter) : Bool :=
  match f.operator with
  | .known o => o ≠ .isTrue && o ≠ .isFalse
  | .other _ => true

/-- The value that a filter is asked for is absent, an empty text or an empty list. -/
def lacksValue (f : Filter) : Bool := f.asksForValue && FieldKind.isBlank f.value

/-- The date that a filter is asked for is no date on a day. -/
def hasLapsed (d : Definition) (today : Date) (f : Filter) : Bool :=
  f.asksForValue && (decide (d.kind = .date) && f.value.hasLapsed today)

/-- A filter with an operator of the vocabulary and a value that its kind admitted on one of some
days. -/
structure AdmittedOn (days : Date → Prop) (d : Definition) (f : Filter) : Prop where
  operator : ∃ o, f.operator = .known o
  value : d.kind.KeepsOn days f.value

variable {d : Definition} {f g : Filter} {rules : Rules} {days : Date → Prop}

theorem new_admittedOn (d : Definition) (id : Text) {day : Date} (hday : days day) :
    AdmittedOn days d
      ⟨id, d.id, .known d.defaultOperator, d.kind.defaultValue day.isoText, none⟩ :=
  ⟨⟨_, rfl⟩, d.kind.keepsOn_defaultValue hday⟩

/-- **A patch keeps a filter admitted**, on one more day. -/
theorem patch_admittedOn {p : Patch} (hday : days rules.today) (hf : f.AdmittedOn days d)
    (h : p.apply rules (some d) f = .ok g) : g.AdmittedOn days d := by
  refine ⟨patch_operatorKnown hf.operator h, ?_⟩
  rcases patch_value_cases h with hsame | ⟨v, -, hnormal, hadmits⟩
  · exact hsame ▸ hf.value
  · rw [hnormal] at hadmits ⊢
    exact FieldKind.keepsOn_of_admits hday hadmits v.normalize_ne_tuple

/-- **The filter of a stored item is admitted** on the day on which it is read. -/
theorem resolve_admittedOn {c : Catalog} {item : Value} (hday : days rules.today)
    (h : resolve c rules item = .ok f) :
    ∃ d, c.find? f.definitionId = some d ∧ f.AdmittedOn days d := by
  obtain ⟨d, read, hdefinition, -, hoperator, -, hvalue⟩ := resolve_cases h
  refine ⟨d, hdefinition, hoperator, ?_⟩
  rcases hvalue with hdefault | ⟨hnormal, hadmits⟩
  · rw [hdefault]
    exact d.kind.keepsOn_defaultValue hday
  · rw [hnormal] at hadmits ⊢
    exact FieldKind.keepsOn_of_admits hday hadmits read.value.normalize_ne_tuple

theorem asksForValue_known {o : Operator} (h : f.operator = .known o) :
    f.asksForValue = !o.takesNothing := by
  unfold asksForValue
  rw [h]
  cases o <;> rfl

/-- **A filter is complete** unless it lacks a value or its value has lapsed, if it does not exceed
the numbers. -/
theorem AdmittedOn.isComplete_eq (hf : f.AdmittedOn days d) (hnumbers : ¬ f.ExceedsNumbers d)
    (today : Date) :
    d.kind.isComplete today f.operator f.value =
      .ok !(f.lacksValue || f.hasLapsed d today) := by
  obtain ⟨o, ho⟩ := hf.operator
  rw [lacksValue, hasLapsed, asksForValue_known ho, ho]
  cases hnothing : o.takesNothing with
  | true => simp [FieldKind.isComplete, hnothing]
  | false =>
    have hinside : d.kind = .number → ∀ n, f.value.HasInteger n → Binary64.ofInt? n ≠ none :=
      fun hkind n hint hn => hnumbers ⟨hkind, ⟨o, ho, hnothing⟩, n, hint, hn⟩
    simpa [FieldKind.isComplete, hnothing] using
      FieldKind.isCompleteValue_eq hf.value hinside today

/-- On the day of its admission the value of a filter has not lapsed. -/
theorem AdmittedOn.not_hasLapsed {today : Date} (hf : f.AdmittedOn (· = today) d) :
    f.hasLapsed d today = false := by
  have hvalue := hf.value
  unfold hasLapsed
  by_cases hkind : d.kind = .date
  · rw [hkind] at hvalue
    simp [hvalue.not_hasLapsed]
  · simp [hkind]

end Filter

end Winnow

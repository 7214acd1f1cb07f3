import Winnow.Proofs.Calendar.AnyDay
import Winnow.Proofs.Evaluation.Days
import Winnow.Proofs.Filter.Entry

/-!
# Records that hold the value of a filter

A filter for equality coerces both values, and where a value has no coercion it fails, which takes
the record away.  So a record that holds the very value of the filter is kept exactly if the value
can be compared with itself, and a filter for inequality always takes it away.

* `Moment.exists_toUtc_iff` : the moments that have a day in UTC;
* `Value.IsComparable` : the admitted values that can be compared with themselves;
* `Value.equalsFor_self`, `Value.equalsFor_self_error` : these equal themselves, and for the others
  equality fails;
* `Evaluation.run_own_value` : what equality and inequality keep of the records with the value;
* `Evaluation.not_run_own_value` : an admitted number that is not kept.
-/

namespace Winnow

open Outcome

/-! ## Days in UTC -/

namespace Moment

/-- The offset of a moment is less than a day, and its place on the time line is in the calendar. -/
def InCalendar (m : Moment) : Prop :=
  offsetInRange (m.offset.getD 0) = true ∧ microsPerDay ≤ m.instantOf ∧
    m.instantOf < (Date.last.dayNumber + 1) * microsPerDay

/-- **A moment has a day in UTC exactly if it is in the calendar there.** -/
theorem exists_toUtc_iff {m : Moment} : (∃ u, m.toUtc = .ok u) ↔ m.InCalendar := by
  constructor
  · rintro ⟨u, hu⟩
    obtain ⟨hrange, hinstant, hutc⟩ := of_toUtc hu
    obtain ⟨hlow, hhigh⟩ := instantOf_bounds hutc
    obtain ⟨hfirst, hlast⟩ := u.date.dayNumber_bounds
    rw [hinstant] at hlow hhigh
    rw [microsPerDay] at hlow hhigh
    refine ⟨hrange, ?_, ?_⟩
    · rw [microsPerDay]
      omega
    · rw [microsPerDay]
      omega
  · rintro ⟨hrange, hlow, hhigh⟩
    have hday : 1 ≤ m.instantOf / microsPerDay ∧
        m.instantOf / microsPerDay ≤ Date.last.dayNumber := by
      rw [microsPerDay] at *
      omega
    obtain ⟨n, hn⟩ : ∃ n : Nat, m.instantOf / microsPerDay = n :=
      ⟨_, (Int.toNat_of_nonneg (by omega)).symm⟩
    obtain ⟨d, hd, -⟩ := Date.exists_of_dayNumber (n := n) (by omega)
      (by rw [← Date.dayNumber_last]; omega)
    have hfound : ofInstant? m.instantOf = some
        ⟨d, TimeOfDay.ofMicros (m.instantOf % microsPerDay).toNat, some 0⟩ := by
      unfold ofInstant?
      rw [hn, hd]
      rfl
    exact ⟨_, toUtc_of_instant (instant_eq_ok_iff.mpr ⟨hrange, rfl⟩) hfound⟩

end Moment

/-! ## Values and themselves -/

/-- A single value that is a date is a text with a moment. -/
theorem FieldKind.of_admits_date {rules : Rules} {v : Value}
    (h : FieldKind.date.admits rules v = .ok true) (hnull : v.isNull = false)
    (htuple : ∀ items, v ≠ .tuple items) :
    (∃ items, v = .list items) ∨
      ∃ t m, v = .text t ∧ Moment.ofWritten rules.today t = .ok (some m) := by
  cases v with
  | list items => exact .inl ⟨items, rfl⟩
  | tuple items => exact absurd rfl (htuple items)
  | null => cases hnull
  | text t =>
    obtain ⟨fitting, hfits, h⟩ := of_bind_ok h
    obtain ⟨o, ho, hfits⟩ := of_bind_ok hfits
    cases hfits
    cases o with
    | none => cases h
    | some m => exact .inr ⟨t, m, rfl, ho⟩
  | _ => cases h

namespace Value

/-- A value can be compared with itself: an integer has a nearest binary64 number, and the moment of
a date has a day in UTC. -/
def IsComparable (today : Date) (kind : FieldKind) : Value → Prop
  | .int n => ∃ x, Binary64.ofInt? n = some x
  | .text t => kind = .date → ∀ m, Moment.ofWritten today t = .ok (some m) → m.InCalendar
  | _ => True

variable {today : Date} {v : Value} {t : Text}

theorem looselyEquals_self (hv : v.IsPlain) (hnull : v.isNull = false)
    (hint : ∀ n, v = .int n → ∃ x, Binary64.ofInt? n = some x) :
    v.looselyEquals today v = .ok true := by
  cases hv with
  | null => cases hnull
  | list hitems => exact congrArg Except.ok (IsPlain.list hitems).equals_self
  | item hv =>
    cases hv with
    | bool b => exact congrArg Except.ok (beq_self_eq_true b)
    | text t => exact congrArg Except.ok (beq_self_eq_true t)
    | float hx =>
      exact (compareNumbers_ok rfl rfl).trans (congrArg Except.ok (IsItem.float hx).equals_self)
    | int n =>
      obtain ⟨x, hx⟩ := hint n rfl
      have hnumber : toNumber today (.int n) = .ok x := by
        show (Binary64.ofInt? n).elim _ _ = _
        rw [hx]
        rfl
      exact (compareNumbers_ok hnumber hnumber).trans
        (congrArg Except.ok (IsItem.float (Binary64.isNaN_ofInt? hx)).equals_self)

theorem looselyEquals_self_error {n : Int} (hn : Binary64.ofInt? n = none) :
    (Value.int n).looselyEquals today (.int n) = .error .outOfRange := by
  have hnumber : toNumber today (.int n) = .error .outOfRange := by
    show (Binary64.ofInt? n).elim _ _ = _
    rw [hn]
    rfl
  show compareNumbers today Binary64.equals (.int n) (.int n) = _
  unfold compareNumbers
  rw [hnumber]
  rfl

/-- A text is the same day as itself, if it has no moment or one with a day in UTC. -/
theorem sameDay_self {o : Option Moment} (ho : Moment.ofWritten today t = .ok o)
    (hcalendar : ∀ m ∈ o, m.InCalendar) :
    (Value.text t).sameDay today (.text t) = .ok true := by
  have hmoment : toMoment today (.text t) = .ok o := ho
  unfold sameDay
  rw [hmoment]
  cases o with
  | none => exact congrArg Except.ok (beq_self_eq_true t)
  | some m =>
    obtain ⟨u, hu⟩ := Moment.exists_toUtc_iff.mpr (hcalendar m rfl)
    show (do return (← m.toUtc).date == (← m.toUtc).date) = _
    rw [hu]
    exact congrArg Except.ok (beq_self_eq_true u.date)

theorem sameDay_self_error {m : Moment} (hm : Moment.ofWritten today t = .ok (some m))
    (hcalendar : ¬ m.InCalendar) :
    ∃ fault, (Value.text t).sameDay today (.text t) = .error fault := by
  have hmoment : toMoment today (.text t) = .ok (some m) := hm
  cases hu : m.toUtc with
  | ok u => exact absurd (Moment.exists_toUtc_iff.mp ⟨u, hu⟩) hcalendar
  | error fault =>
    refine ⟨fault, ?_⟩
    unfold sameDay
    rw [hmoment]
    show (do return (← m.toUtc).date == (← m.toUtc).date) = _
    rw [hu]
    rfl

variable {rules : Rules} {kind : FieldKind}

/-- **An admitted value that can be compared with itself equals itself**, on whatever day it was
admitted. -/
theorem equalsFor_self (hadmits : kind.admits rules v = .ok true) (hnull : v.isNull = false)
    (htuple : ∀ items, v ≠ .tuple items) (h : v.IsComparable today kind) :
    v.equalsFor today kind v = .ok true := by
  have hloosely : v.looselyEquals today v = .ok true := by
    refine looselyEquals_self (FieldKind.isPlain_of_admits hadmits htuple) hnull ?_
    rintro n rfl
    exact h
  unfold equalsFor
  split
  · rename_i hkind
    subst hkind
    rcases FieldKind.of_admits_date hadmits hnull htuple with ⟨items, rfl⟩ | ⟨t, m, rfl, hm⟩
    · exact hloosely
    · obtain ⟨o, ho⟩ := Moment.ofWritten_anyDay hm today
      refine sameDay_self ho fun u hu => h rfl u ?_
      rw [ho, Option.mem_def.mp hu]
  · exact hloosely

/-- **For any other admitted value equality with itself fails.** -/
theorem equalsFor_self_error (hadmits : kind.admits rules v = .ok true)
    (hnull : v.isNull = false) (htuple : ∀ items, v ≠ .tuple items)
    (h : ¬ v.IsComparable today kind) : ∃ fault, v.equalsFor today kind v = .error fault := by
  unfold equalsFor
  split
  · rename_i hkind
    subst hkind
    rcases FieldKind.of_admits_date hadmits hnull htuple with ⟨items, rfl⟩ | ⟨t, m, rfl, -⟩
    · exact absurd trivial h
    · simp only [IsComparable, forall_const, not_forall] at h
      obtain ⟨m, hm, hcalendar⟩ := h
      exact sameDay_self_error hm hcalendar
  · rename_i hkind
    cases v with
    | int n =>
      have hn : Binary64.ofInt? n = none :=
        Option.eq_none_iff_forall_ne_some.mpr fun x hx => h ⟨x, hx⟩
      exact ⟨_, looselyEquals_self_error hn⟩
    | text t => exact absurd (fun hdate => absurd hdate hkind) h
    | _ => exact absurd trivial h

end Value

/-! ## Evaluation -/

namespace Evaluation

/-- A record is not kept by a filter with its own value, if this cannot be compared with itself. -/
theorem not_mem_of_equalsFor_error {today : Date} {c : Catalog} {f : Filter} {d : Definition}
    (hf : c.find? f.definitionId = some d) (hsorting : f.SortingNamed)
    (hoperator : f.operator = .known .equals) (hnull : f.value.isNull = false) {fault : Fault}
    (hfails : f.value.equalsFor today d.kind f.value = .error fault) {row : Row}
    (hread : row.record.read d.field = .ok f.value) :
    ∃ kept, run today c [f] [row] = .ok kept ∧ row ∉ kept := by
  obtain ⟨kept, hkept, hkeeps⟩ := run_singleton today hf hsorting [row]
  refine ⟨kept, hkept, fun hmem => ?_⟩
  have haccepts := (hkeeps row List.mem_cons_self).mp hmem
  rw [Filter.accepts_known hread hnull hoperator] at haccepts
  cases hfails.symm.trans haccepts

/-- **A filter with the very value of a record.**  For every value that the definition admits, a
filter for inequality takes away the records that hold it, and a filter for equality keeps them
exactly if the value can be compared with itself. -/
theorem run_own_value (today : Date) (c : Catalog) (f : Filter) (d : Definition)
    (hf : c.find? f.definitionId = some d) (hsorting : f.SortingNamed) {rules : Rules} {v : Value}
    (hadmits : d.kind.admits rules v = .ok true) (hnull : v.isNull = false)
    (htuple : ∀ items, v ≠ .tuple items) (rows : List Row) :
    ∃ kept differing, run today c [f.asking .equals v] rows = .ok kept ∧
      run today c [f.asking .notEquals v] rows = .ok differing ∧
      ∀ row ∈ rows, row.record.read d.field = .ok v →
        (row ∈ kept ↔ v.IsComparable today d.kind) ∧ row ∉ differing := by
  obtain ⟨kept, hkept, hkeeps⟩ :=
    run_singleton today (f := f.asking .equals v) hf hsorting rows
  obtain ⟨differing, hdiffering, hdiffers⟩ :=
    run_singleton today (f := f.asking .notEquals v) hf hsorting rows
  refine ⟨kept, differing, hkept, hdiffering, fun row hrow hread => ?_⟩
  rw [hkeeps row hrow, hdiffers row hrow, Filter.accepts_known hread hnull rfl,
    Filter.accepts_known hread hnull rfl]
  show (v.equalsFor today d.kind v = .ok true ↔ _) ∧
    ¬ (do return !(← v.equalsFor today d.kind v)) = Except.ok true
  by_cases hcomparable : v.IsComparable today d.kind
  · rw [Value.equalsFor_self hadmits hnull htuple hcomparable]
    exact ⟨⟨fun _ => hcomparable, fun _ => rfl⟩, nofun⟩
  · obtain ⟨fault, hfault⟩ := Value.equalsFor_self_error hadmits hnull htuple hcomparable
    rw [hfault]
    exact ⟨⟨nofun, fun h => absurd h hcomparable⟩, nofun⟩

/-- A leap day in writing, which is the value of the filter too. -/
theorem run_own_value_startDate :
    let d : Date := ⟨2020, 2, 29, by decide⟩
    let f : Filter := ⟨"a", "startDate", .known .equals, .null, none⟩
    let row : Row := ⟨0, [("startDate", .text d.isoText)]⟩
    ∃ kept differing,
      run default Employees.catalog [f.asking .equals (.text d.isoText)] [row] = .ok kept ∧
      run default Employees.catalog [f.asking .notEquals (.text d.isoText)] [row] = .ok differing ∧
      row ∈ kept ∧ row ∉ differing := by
  intro d f row
  have hcomparable : (Value.text d.isoText).IsComparable default .date := by
    intro _ m hm
    rw [Moment.ofWritten_isoText, Except.ok.injEq, Option.some.injEq] at hm
    subst hm
    exact ⟨by decide, by decide, by decide⟩
  have hadmits : FieldKind.date.admits ⟨default, Settings.bundled.limits⟩ (.text d.isoText) =
      .ok true := by decide +kernel
  obtain ⟨kept, differing, hkept, hdiffering, hrows⟩ :=
    run_own_value default Employees.catalog f _ rfl (.inl rfl) hadmits rfl nofun [row]
  obtain ⟨hequal, hdiffers⟩ := hrows row List.mem_cons_self rfl
  exact ⟨kept, differing, hkept, hdiffering, hequal.mpr hcomparable, hdiffers⟩

/-- **A record with an admitted value need not equal it**: an integer beyond the binary64 numbers
has no number, and the first hour of the calendar, east of Greenwich, has no day in UTC. -/
theorem not_run_own_value :
    let rules : Rules := ⟨default, Settings.bundled.limits⟩
    let n : Value := .int (10 ^ 401)
    let t : Value := .text "0001-01-01T00:00:00+01:00"
    let rich : Row := ⟨0, [("salary", n)]⟩
    let early : Row := ⟨1, [("startDate", t)]⟩
    FieldKind.number.admits rules n = .ok true ∧ FieldKind.date.admits rules t = .ok true ∧
      (∃ kept, run default Employees.catalog [⟨"a", "salary", .known .equals, n, none⟩] [rich] =
        .ok kept ∧ rich ∉ kept) ∧
      ∃ kept, run default Employees.catalog [⟨"b", "startDate", .known .equals, t, none⟩] [early] =
        .ok kept ∧ early ∉ kept := by
  have hhuge : Binary64.ofInt? (10 ^ 401) = none := Binary64.ofInt?_ten_pow (by decide)
  have hday : (Value.text "0001-01-01T00:00:00+01:00").equalsFor default .date
      (.text "0001-01-01T00:00:00+01:00") = .error .outOfRange := by decide +kernel
  have hadmits : FieldKind.date.admits ⟨default, Settings.bundled.limits⟩
      (.text "0001-01-01T00:00:00+01:00") = .ok true := by decide +kernel
  generalize (10 : Int) ^ 401 = n at hhuge ⊢
  generalize ("0001-01-01T00:00:00+01:00" : Text) = t at hday hadmits ⊢
  intro rules v w rich early
  have hsalary : v.equalsFor default .number v = .error .outOfRange :=
    Value.looselyEquals_self_error hhuge
  refine ⟨rfl, hadmits, ?_, ?_⟩
  · exact not_mem_of_equalsFor_error (f := ⟨"a", "salary", .known .equals, v, none⟩) rfl
      (.inl rfl) rfl rfl hsalary rfl
  · exact not_mem_of_equalsFor_error (f := ⟨"b", "startDate", .known .equals, w, none⟩) rfl
      (.inl rfl) rfl rfl hday rfl

end Evaluation

end Winnow

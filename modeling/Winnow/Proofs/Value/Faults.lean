import Winnow.Evaluation.Match
import Winnow.Evaluation.Order
import Winnow.Proofs.Calendar.Faults

/-!
# How coercions and comparisons fail

What a filter or a sort key does with the values of a record fails only at the values themselves:
at their arithmetic or at their conversion.

* `Fault.IsConversion`, `Fault.FromValues` : these failures;
* `Value.literal_faults`, `Value.plainText_faults` : a value is written, or it cannot be converted;
* `Record.read_faults` : a field of a record is read, or fails in this way;
* `Filter.accepts_faults` : so does every operator on every pair of values;
* `Value.order_faults` : so does the comparison of two values.
-/

namespace Winnow

open Outcome

/-- A failure to convert a value. -/
def Fault.IsConversion : Fault → Prop
  | .digitLimit _ | .notAnInteger _ _ | .offsetTooLarge | .nullCharacter => True
  | _ => False

/-- A failure of arithmetic on values, or of their conversion. -/
def Fault.FromValues (fault : Fault) : Prop := fault.isArithmetic = true ∨ fault.IsConversion

theorem Fault.IsConversion.not_arithmetic {fault : Fault} (h : fault.IsConversion) :
    fault.isArithmetic = false := by
  cases fault <;> first | rfl | cases h

variable {α : Type}

theorem FromValues.of_conversion {x : Except Fault α} (h : FailsWith Fault.IsConversion x) :
    FailsWith Fault.FromValues x :=
  h.mono fun _ hfault => .inr hfault

theorem Numeral.ofInt_faults (n : Int) : FailsWith Fault.IsConversion (Numeral.ofInt n) := by
  unfold Numeral.ofInt
  split
  · exact failsWith_error trivial
  · exact failsWith_ok _

theorem Numeral.toInt_faults (t : Text) : FailsWith Fault.IsConversion (Numeral.toInt t) := by
  unfold Numeral.toInt
  dsimp only
  split
  · exact failsWith_error trivial
  · split
    · exact failsWith_error trivial
    · split
      · exact failsWith_error trivial
      · exact failsWith_ok _

/-! ## Moments -/

namespace Moment

theorem usableOffset_faults (m : Moment) : FailsWith Fault.IsConversion m.usableOffset := by
  unfold usableOffset
  dsimp only
  split
  · exact failsWith_ok _
  · exact failsWith_error trivial

theorem instant_faults (m : Moment) : FailsWith Fault.IsConversion m.instant :=
  (usableOffset_faults m).bind fun _ => failsWith_pure _

theorem epochMillis_faults (m : Moment) : FailsWith Fault.IsConversion m.epochMillis :=
  (instant_faults m).bind fun _ => failsWith_pure _

theorem toUtc_faults (m : Moment) : FailsWith Fault.FromValues m.toUtc := by
  refine (FromValues.of_conversion (instant_faults m)).bind fun _ => ?_
  split
  · exact failsWith_ok _
  · exact failsWith_error (.inl rfl)

theorem textWith_faults (separator : Char) (m : Moment) :
    FailsWith Fault.IsConversion (m.textWith separator) := by
  unfold textWith
  dsimp only
  split
  · exact (failsWith_pure _).bind fun _ => failsWith_pure _
  · split
    · exact (failsWith_pure _).bind fun _ => failsWith_pure _
    · exact (failsWith_error trivial).bind fun _ => failsWith_pure _

end Moment

/-! ## Coercions -/

theorem Binary64.ofInt_faults (n : Int) : FailsWith Fault.FromValues (Binary64.ofInt n) := by
  unfold Binary64.ofInt
  cases Binary64.ofInt? n with
  | none => exact failsWith_error (.inl rfl)
  | some x => exact failsWith_ok _

namespace Value

theorem toMoment_faults (today : Date) (v : Value) :
    FailsWith Fault.FromValues (v.toMoment today) := by
  cases v with
  | text t =>
    refine (Moment.ofWritten_faults today t).mono fun fault hfault => ?_
    rw [hfault.1]
    exact .inl rfl
  | int n => exact (Binary64.ofInt_faults n).bind fun _ => failsWith_pure _
  | _ => exact failsWith_ok _

theorem toEpochMillis_faults (today : Date) (v : Value) :
    FailsWith Fault.FromValues (v.toEpochMillis today) := by
  refine (toMoment_faults today v).bind fun o => ?_
  cases o with
  | none => exact failsWith_pure _
  | some m => exact FromValues.of_conversion m.epochMillis_faults

theorem toNumber_faults (today : Date) (v : Value) :
    FailsWith Fault.FromValues (v.toNumber today) := by
  cases v with
  | int n => exact Binary64.ofInt_faults n
  | date d => exact toEpochMillis_faults today (.date d)
  | moment m => exact toEpochMillis_faults today (.moment m)
  | _ => exact failsWith_ok _

mutual

theorem literal_faults : ∀ v : Value, FailsWith Fault.IsConversion v.literal
  | .null | .bool _ | .float _ | .text _ | .date _ | .moment _ => by
    unfold literal
    exact failsWith_ok _
  | .int n => by
    unfold literal
    exact Numeral.ofInt_faults n
  | .list items => by
    unfold literal
    exact (itemLiterals_faults items).bind fun _ => failsWith_pure _
  | .tuple items => by
    unfold literal
    refine (itemLiterals_faults items).bind fun ts => ?_
    split <;> exact failsWith_pure _
  | .object entries => by
    unfold literal
    exact (entryLiterals_faults entries).bind fun _ => failsWith_pure _

theorem itemLiterals_faults :
    ∀ items : List Value, FailsWith Fault.IsConversion (itemLiterals items)
  | [] => by
    unfold itemLiterals
    exact failsWith_ok _
  | v :: vs => by
    unfold itemLiterals
    exact (literal_faults v).bind fun _ => (itemLiterals_faults vs).bind fun _ => failsWith_pure _

theorem entryLiterals_faults :
    ∀ entries : List (Text × Value), FailsWith Fault.IsConversion (entryLiterals entries)
  | [] => by
    unfold entryLiterals
    exact failsWith_ok _
  | (key, v) :: es => by
    unfold entryLiterals
    exact (literal_faults v).bind fun _ => (entryLiterals_faults es).bind fun _ => failsWith_pure _

end

mutual

theorem toText_faults : ∀ v : Value, FailsWith Fault.IsConversion v.toText
  | .null | .bool _ | .text _ | .date _ => by
    unfold toText
    exact failsWith_ok _
  | .float x => by
    unfold toText
    split
    · exact Numeral.ofInt_faults _
    · exact failsWith_ok _
  | .int n => by
    unfold toText
    exact Numeral.ofInt_faults n
  | .moment m => by
    unfold toText
    exact m.textWith_faults 'T'
  | .list items | .tuple items => by
    unfold toText
    exact (itemTexts_faults items).bind fun _ => failsWith_pure _
  | .object entries => by
    unfold toText
    exact literal_faults (.object entries)

theorem itemTexts_faults : ∀ items : List Value, FailsWith Fault.IsConversion (itemTexts items)
  | [] => by
    unfold itemTexts
    exact failsWith_ok _
  | v :: vs => by
    unfold itemTexts
    exact (toText_faults v).bind fun _ => (itemTexts_faults vs).bind fun _ => failsWith_pure _

end

theorem plainText_faults (v : Value) : FailsWith Fault.IsConversion v.plainText := by
  unfold plainText
  split
  · exact failsWith_ok _
  · exact failsWith_ok _
  · exact Moment.textWith_faults ' ' _
  · exact literal_faults _

/-! ## Operators -/

variable (today : Date) (v w : Value)

theorem compareNumbers_faults (test : Binary64 → Binary64 → Bool) :
    FailsWith Fault.FromValues (compareNumbers today test v w) :=
  (toNumber_faults today v).bind fun _ => (toNumber_faults today w).bind fun _ => failsWith_pure _

theorem compareMoments_faults (test : Binary64 → Binary64 → Bool) :
    FailsWith Fault.FromValues (compareMoments today test v w) :=
  (toEpochMillis_faults today v).bind fun _ =>
    (toEpochMillis_faults today w).bind fun _ => failsWith_pure _

theorem sameText_faults : FailsWith Fault.IsConversion (sameText v w) :=
  (toText_faults v).bind fun _ => (toText_faults w).bind fun _ => failsWith_pure _

theorem compareTexts_faults (test : Text → Text → Bool) :
    FailsWith Fault.IsConversion (compareTexts test v w) :=
  (toText_faults v).bind fun _ => (toText_faults w).bind fun _ => failsWith_pure _

theorem looselyEqualItems_faults : FailsWith Fault.FromValues (looselyEqualItems today v w) := by
  unfold looselyEqualItems
  split
  · exact failsWith_ok _
  · exact failsWith_ok _
  · split
    · exact compareMoments_faults today _ _ _
    · split
      · exact failsWith_ok _
      · exact compareNumbers_faults today _ _ _

theorem looselyEquals_faults : FailsWith Fault.FromValues (looselyEquals today v w) := by
  unfold looselyEquals
  split
  · exact failsWith_ok _
  · exact FromValues.of_conversion (sameText_faults _ _)
  · exact FromValues.of_conversion (sameText_faults _ _)
  · exact looselyEqualItems_faults today _ _

theorem sameDay_faults : FailsWith Fault.FromValues (sameDay today v w) := by
  refine (toMoment_faults today v).bind fun o => (toMoment_faults today w).bind fun p => ?_
  split
  · exact (Moment.toUtc_faults _).bind fun _ =>
      (Moment.toUtc_faults _).bind fun _ => failsWith_pure _
  · exact looselyEquals_faults today v w

theorem equalsFor_faults (kind : FieldKind) :
    FailsWith Fault.FromValues (equalsFor today kind v w) := by
  unfold equalsFor
  split
  · exact sameDay_faults today v w
  · exact looselyEquals_faults today v w

theorem holds_faults : FailsWith Fault.IsConversion (holds v w) := by
  unfold holds
  split
  · exact failsWith_ok _
  · exact failsWith_ok _
  · exact (toText_faults w).bind fun _ => (toText_faults v).bind fun _ => failsWith_pure _

theorem liesBetween_faults (kind : FieldKind) :
    FailsWith Fault.FromValues (liesBetween today kind v w) := by
  have hcoerce : ∀ u, FailsWith Fault.FromValues
      ((if kind = .date then toEpochMillis today else toNumber today) u) := by
    intro u
    split
    · exact toEpochMillis_faults today u
    · exact toNumber_faults today u
  unfold liesBetween
  dsimp only
  split
  · exact (hcoerce v).bind fun _ => (hcoerce _).bind fun _ => (hcoerce _).bind fun _ =>
      failsWith_pure _
  · exact failsWith_ok _

end Value

theorem Operator.test_faults (today : Date) (kind : FieldKind) (field value : Value)
    (o : Operator) : FailsWith Fault.FromValues (o.test today kind field value) := by
  cases o with
  | equals => exact Value.equalsFor_faults today _ _ _
  | notEquals => exact (Value.equalsFor_faults today _ _ _).bind fun _ => failsWith_pure _
  | contains => exact FromValues.of_conversion (Value.holds_faults _ _)
  | notContains =>
    exact (FromValues.of_conversion (Value.holds_faults _ _)).bind fun _ => failsWith_pure _
  | startsWith =>
    exact FromValues.of_conversion
      (Value.compareTexts_faults field value fun whole part => part.isPrefixOf whole)
  | endsWith =>
    exact FromValues.of_conversion
      (Value.compareTexts_faults field value fun whole part => part.isSuffixOf whole)
  | greaterThan | lessThan | greaterThanOrEqual | lessThanOrEqual =>
    exact Value.compareNumbers_faults today _ _ _
  | isIn | notIn | isTrue | isFalse => exact failsWith_ok _
  | before | after => exact Value.compareMoments_faults today _ _ _
  | between => exact Value.liesBetween_faults today _ _ _

/-! ## Fields -/

theorem Record.item_faults (items : List Value) (part : Text) :
    FailsWith Fault.IsConversion (Record.item items part) := by
  unfold Record.item
  split
  · exact (Numeral.toInt_faults part).bind fun _ => failsWith_pure _
  · exact failsWith_ok _

theorem Record.steps_faults (parts : List Text) (v : Value) :
    FailsWith Fault.IsConversion (parts.foldlM Record.step v) := by
  induction parts generalizing v with
  | nil => exact failsWith_pure _
  | cons part parts ih =>
    rw [List.foldlM_cons]
    refine FailsWith.bind ?_ fun u => ih u
    unfold Record.step
    split
    · exact failsWith_ok _
    · exact Record.item_faults _ _
    · exact failsWith_ok _

/-- Reading a field fails only at a place in a list that is no numeral. -/
theorem Record.read_faults (r : Record) (path : Text) :
    FailsWith Fault.IsConversion (r.read path) := by
  unfold Record.read
  split
  · exact failsWith_ok _
  · exact Record.steps_faults _ _

/-- **A filter fails on a record only at the values**, whatever its operator and the record are. -/
theorem Filter.accepts_faults (today : Date) (d : Definition) (f : Filter) (r : Record) :
    FailsWith Fault.FromValues (f.accepts today d r) := by
  refine (FromValues.of_conversion (Record.read_faults r d.field)).bind fun v => ?_
  unfold OperatorChoice.test
  split
  · split
    · exact failsWith_ok _
    · exact Operator.test_faults today _ _ _ _
  · exact failsWith_ok _

/-! ## Order -/

theorem Text.collate_faults (s t : Text) : FailsWith Fault.IsConversion (Text.collate s t) := by
  unfold Text.collate
  split
  · exact failsWith_error trivial
  · exact failsWith_ok _

/-- **The comparison of two values fails only at the values.** -/
theorem Value.order_faults (today : Date) (v w : Value) :
    FailsWith Fault.FromValues (v.order today w) := by
  unfold Value.order
  split
  · exact FromValues.of_conversion (Text.collate_faults _ _)
  · split
    · exact failsWith_ok _
    · split
      all_goals first
        | exact (Value.toEpochMillis_faults today _).bind fun _ =>
            (Value.toEpochMillis_faults today _).bind fun _ => failsWith_pure _
        | exact FromValues.of_conversion ((Value.toText_faults _).bind fun _ =>
            (Value.toText_faults _).bind fun _ => Text.collate_faults _ _)

end Winnow

import Winnow.Proofs.Filter.Conformance
import Winnow.Proofs.Json.Reading

/-!
# Reading back the entries of filters

The entry of a filter that conforms to its definition makes the filter again: nothing of it is
replaced, and what was left out because it is absent is absent.

* `Value.IsPlain` : the values that a kind of field admits;
* `Value.Storable` : values whose texts and integers a stored text keeps;
* `Filter.entry_eq` : the entry of a filter with a known operator and a known direction;
* `Filter.writable_parts` : it can be written and read back;
* `Filter.resolve_entry` : it makes the filter again.
-/

namespace Winnow

open Outcome

namespace Value

/-- A single value that a kind of field admits. -/
inductive IsItem : Value → Prop
  | bool (b : Bool) : IsItem (.bool b)
  | int (n : Int) : IsItem (.int n)
  | float {x : Binary64} (hx : x.isNaN = false) : IsItem (.float x)
  | text (t : Text) : IsItem (.text t)

/-- A value that a kind of field admits, tuples apart: nothing, a single one, or a list of them. -/
inductive IsPlain : Value → Prop
  | null : IsPlain .null
  | item {v : Value} (hv : v.IsItem) : IsPlain v
  | list {items : List Value} (hitems : ∀ v ∈ items, v.IsItem) : IsPlain (.list items)

/-- The texts of a value hold no surrogates, and its integers have no more digits than are
converted. -/
inductive Storable : Value → Prop
  | null : Storable .null
  | bool (b : Bool) : Storable (.bool b)
  | int {n : Int} (hn : (Numeral.digits n.natAbs).length ≤ Numeral.digitLimit) : Storable (.int n)
  | float (x : Binary64) : Storable (.float x)
  | text {t : Text} (ht : ∀ c ∈ t, Json.IsScalar c) : Storable (.text t)
  | list {items : List Value} (hitems : ∀ v ∈ items, Storable v) : Storable (.list items)
  | tuple {items : List Value} (hitems : ∀ v ∈ items, Storable v) : Storable (.tuple items)
  | date (d : Date) : Storable (.date d)
  | moment (m : Moment) : Storable (.moment m)
  | object {entries : Entries} (hkeys : ∀ e ∈ entries, ∀ c ∈ e.1, Json.IsScalar c)
    (hvalues : ∀ e ∈ entries, Storable e.2) : Storable (.object entries)

theorem IsItem.writable {v : Value} (hv : v.IsItem) (hstorable : v.Storable) (depth : Nat) :
    Json.Writable depth v := by
  cases hv with
  | bool b => exact .bool b
  | int n =>
    cases hstorable with
    | int hn => exact .int hn
  | float _ => exact .float _
  | text t =>
    cases hstorable with
    | text ht => exact .text ht

theorem IsPlain.writable {v : Value} (hv : v.IsPlain) (hstorable : v.Storable) :
    Json.Writable 1 v := by
  cases hv with
  | null => exact .null
  | item hv => exact hv.writable hstorable 1
  | list hitems =>
    cases hstorable with
    | list hstorable => exact .list fun v hv => (hitems v hv).writable (hstorable v hv) 0

/-! ## Equality with itself -/

theorem IsItem.equals_self {v : Value} (hv : v.IsItem) : v.equals v = true := by
  cases hv with
  | bool b => cases b <;> rfl
  | int n =>
    show (some (compare n n) == some .eq) = true
    rw [Int.compare_eq_eq.mpr rfl]
    rfl
  | @float x hx =>
    cases x with
    | nan => cases hx
    | number negative rank =>
      show (some (compare _ _) == some .eq) = true
      rw [Int.compare_eq_eq.mpr rfl]
      rfl
  | text t => exact beq_self_eq_true t

theorem IsPlain.equals_self {v : Value} (hv : v.IsPlain) : v.equals v = true := by
  cases hv with
  | null => rfl
  | item hv => exact hv.equals_self
  | @list items hitems =>
    rw [equals]
    induction items with
    | nil => rfl
    | cons w ws ih =>
      rw [equalItems, (hitems w List.mem_cons_self).equals_self, Bool.true_and]
      exact ih fun v hv => hitems v (List.mem_cons_of_mem w hv)

end Value

/-! ## Admitted values are plain -/

namespace FieldKind

variable {rules : Rules} {kind : FieldKind} {v : Value}

theorem isItem_of_fits {today : Date} (h : kind.fits today v = .ok true) : v.IsItem := by
  unfold fits at h
  split at h
  iterate 3 exact .text _
  · exact .int _
  · rename_i x
    refine .float ?_
    cases hx : x.isNaN with
    | false => rfl
    | true =>
      rw [hx] at h
      cases h
  · exact .text _
  · exact .bool _
  · cases h

theorem isItem_of_admitsItem (h : kind.admitsItem rules v = .ok true) : v.IsItem := by
  unfold admitsItem at h
  obtain ⟨fitting, hfits, h⟩ := of_bind_ok h
  cases fitting with
  | false => cases h
  | true => exact isItem_of_fits hfits

theorem isItem_of_admitsItems {items : List Value} (h : kind.admitsItems rules items = .ok true) :
    ∀ v ∈ items, v.IsItem := by
  unfold admitsItems at h
  split at h
  · cases h
  · obtain ⟨overlong, _, h⟩ := of_bind_ok h
    cases overlong with
    | true => cases h
    | false => exact fun v hv => isItem_of_admitsItem (of_allM_ok h v hv)

/-- **An admitted value is plain**, unless it is a tuple. -/
theorem isPlain_of_admits (h : kind.admits rules v = .ok true)
    (htuple : ∀ items, v ≠ .tuple items) : v.IsPlain := by
  unfold admits at h
  split at h
  · exact .null
  · exact .list (isItem_of_admitsItems h)
  · exact absurd rfl (htuple _)
  · exact .item (isItem_of_admitsItem h)

end FieldKind

/-! ## Words -/

theorem Operator.ofText?_word (o : Operator) : ofText? o.word = some o := by
  cases o <;> rfl

theorem Operator.isScalar_word (o : Operator) : ∀ c ∈ o.word, Json.IsScalar c := by
  cases o <;> exact Json.isScalar_ofString _

theorem Direction.isScalar_word (d : Direction) : ∀ c ∈ d.word, Json.IsScalar c := by
  cases d <;> exact Json.isScalar_ofString _

theorem Definition.allowed?_word {d : Definition} {o : Operator} (ho : o ∈ d.operators) :
    d.allowed? (.text o.word) = some o := by
  unfold allowed?
  simp only [Operator.ofText?_word, Option.filter_some, List.contains_iff_mem.mpr ho, if_true]

/-- A definition allows an operator by its word. -/
theorem Definition.allowed?_eq_some_iff {d : Definition} {v : Value} {o : Operator} :
    d.allowed? v = some o ↔ v = .text o.word ∧ o ∈ d.operators := by
  constructor
  · intro h
    have hmem : o ∈ d.operators := mem_of_allowed? h
    unfold allowed? at h
    split at h
    · rename_i t
      have hword := List.find?_some (Option.filter_eq_some_iff.mp h).1
      exact ⟨congrArg Value.text (beq_iff_eq.mp hword).symm, hmem⟩
    · cases h
  · rintro ⟨rfl, ho⟩
    exact allowed?_word ho

namespace Filter

/-! ## Entries -/

/-- The entries of a value, which is left out if it is absent. -/
def valueParts (v : Value) : Value.Entries := if v.isNull then [] else [("value", v)]

/-- The entries of a direction, which is left out if it is absent. -/
def sortingParts : Option Direction → Value.Entries
  | none => []
  | some direction => [("sortDirection", .text direction.word)]

/-- The entries of a filter with a known operator and a known direction. -/
def parts (f : Filter) (o : Operator) (direction : Option Direction) : Value.Entries :=
  ("id", .text f.id) :: ("definitionId", .text f.definitionId) :: ("operator", .text o.word) ::
    (valueParts f.value ++ sortingParts direction)

variable {rules : Rules} {d : Definition} {f : Filter}

/-- **A filter that conforms has an entry**, by its operator and its direction. -/
theorem entry_eq (hf : f.ConformsTo rules d) : ∃ o ∈ d.operators, ∃ direction,
    f.operator = .known o ∧ f.sorting = direction.map .by ∧
      f.entry = .ok (.object (f.parts o direction)) := by
  obtain ⟨o, ho, hoperator⟩ := hf.operator
  rcases hf.sorting with hsorting | ⟨direction, hsorting⟩
  · refine ⟨o, ho, none, hoperator, hsorting, ?_⟩
    unfold entry parts
    rw [hoperator, hsorting]
    rfl
  · refine ⟨o, ho, some direction, hoperator, hsorting, ?_⟩
    unfold entry parts
    rw [hoperator, hsorting]
    rfl

/-- The texts of a filter hold no surrogates, and the integers of its value have no more digits than
are converted. -/
structure Storable (f : Filter) : Prop where
  id : ∀ c ∈ f.id, Json.IsScalar c
  definitionId : ∀ c ∈ f.definitionId, Json.IsScalar c
  value : f.value.Storable

/-- What the parts of an entry are: a key without surrogates, and a value that is kept. -/
theorem writable_of_mem_parts (hplain : f.value.IsPlain) (hf : f.Storable) {o : Operator}
    {direction : Option Direction} {e : Text × Value} (he : e ∈ f.parts o direction) :
    (∀ c ∈ e.1, Json.IsScalar c) ∧ Json.Writable 1 e.2 := by
  simp only [parts, List.mem_cons, List.mem_append] at he
  rcases he with rfl | rfl | rfl | he | he
  · exact ⟨Json.isScalar_ofString _, .text hf.id⟩
  · exact ⟨Json.isScalar_ofString _, .text hf.definitionId⟩
  · exact ⟨Json.isScalar_ofString _, .text (Operator.isScalar_word o)⟩
  · unfold valueParts at he
    split at he
    · cases he
    · rw [List.mem_singleton.mp he]
      exact ⟨Json.isScalar_ofString _, hplain.writable hf.value⟩
  · cases direction with
    | none => cases he
    | some direction =>
      rw [List.mem_singleton.mp he]
      exact ⟨Json.isScalar_ofString _, .text (Direction.isScalar_word direction)⟩

theorem parts_nodup (f : Filter) (o : Operator) (direction : Option Direction) :
    ((f.parts o direction).map (·.1)).Nodup := by
  unfold parts valueParts
  cases f.value.isNull with
  | true =>
    cases direction with
    | none =>
      show [("id" : Text), "definitionId", "operator"].Nodup
      decide
    | some direction =>
      show [("id" : Text), "definitionId", "operator", "sortDirection"].Nodup
      decide
  | false =>
    cases direction with
    | none =>
      show [("id" : Text), "definitionId", "operator", "value"].Nodup
      decide
    | some direction =>
      show [("id" : Text), "definitionId", "operator", "value", "sortDirection"].Nodup
      decide

/-- **The entry of a filter can be written and read back.** -/
theorem writable_parts (hplain : f.value.IsPlain) (hf : f.Storable) (o : Operator)
    (direction : Option Direction) : Json.Writable 2 (.object (f.parts o direction)) :=
  .object (fun _ he => (writable_of_mem_parts hplain hf he).1) (f.parts_nodup o direction)
    fun _ he => (writable_of_mem_parts hplain hf he).2

/-! ## Reading entries back -/

theorem find?_valueParts (f : Filter) (o : Operator) (direction : Option Direction) :
    (Value.find? "value" (f.parts o direction)).getD .null = f.value := by
  unfold parts valueParts
  cases hnull : f.value.isNull with
  | true =>
    have hvalue : f.value = .null := by
      cases hv : f.value with
      | null => rfl
      | _ =>
        rw [hv] at hnull
        cases hnull
    rw [hvalue]
    cases direction <;> rfl
  | false => rfl

theorem entrySorting_parts (f : Filter) (o : Operator) (direction : Option Direction) :
    entrySorting (f.parts o direction) = .ok (direction.map .by) := by
  unfold parts valueParts
  cases f.value.isNull with
  | true =>
    cases direction with
    | none => rfl
    | some direction => cases direction <;> rfl
  | false =>
    cases direction with
    | none => rfl
    | some direction => cases direction <;> rfl

theorem ofParts_parts (f : Filter) (o : Operator) (direction : Option Direction) :
    ofParts (f.parts o direction) =
      .ok ⟨f.id, f.definitionId, .known o, f.value, direction.map .by⟩ := by
  have hchoice : OperatorChoice.ofValue (.text o.word) = .known o := by
    unfold OperatorChoice.ofValue
    simp only [Operator.ofText?_word]
  have hoperator : entryOperator (f.parts o direction) = .ok (.known o) := by
    rw [← hchoice]
    rfl
  have hid : required "id" (f.parts o direction) = .ok (.text f.id) := rfl
  have hdefinition : entryDefinition (f.parts o direction) = .ok (.text f.definitionId) := rfl
  unfold ofParts
  rw [hdefinition, hoperator, hid, entrySorting_parts, find?_valueParts]
  rfl

/-- **The entry of a filter that conforms makes the filter again.** -/
theorem resolve_entry {c : Catalog} (hdefinition : c.find? f.definitionId = some d)
    (hf : f.ConformsTo rules d) (hstorable : f.Storable) :
    ∃ entry, f.entry = .ok entry ∧ Json.Writable 2 entry ∧ resolve c rules entry = .ok f := by
  obtain ⟨o, ho, direction, hoperator, hsorting, hentry⟩ := entry_eq hf
  have hplain := FieldKind.isPlain_of_admits hf.value hf.notTuple
  refine ⟨_, hentry, writable_parts hplain hstorable o direction, ?_⟩
  have hread : ofEntry (.object (f.parts o direction)) = .ok f := by
    rw [ofEntry, ofParts_parts, ← hoperator, ← hsorting]
  have hrepaired : f.repaired rules d = .ok f := by
    have hallowed : d.allowed? f.operator.value = some o := by
      rw [hoperator]
      exact Definition.allowed?_word ho
    unfold repaired
    rw [hf.value, hallowed, Value.normalize_of_ne_tuple hf.notTuple]
    show Except.ok { f with operator := .known o } = .ok f
    rw [← hoperator]
  simp only [resolve, hread, bind, Except.bind, hdefinition, hrepaired]

end Filter

end Winnow

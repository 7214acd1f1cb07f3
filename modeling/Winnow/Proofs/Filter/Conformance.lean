import Winnow.Filter.Entry
import Winnow.Proofs.Filter.Patch
import Winnow.Proofs.Shape.Admission

/-!
# Filters that conform to their definition

A filter conforms to a definition if its operator is allowed, its value is admitted and its
direction is one of the vocabulary.  Filters come from three places, and each makes filters that
conform: the defaults of a definition, a patch, and a stored entry.

* `Filter.ConformsTo` : the condition;
* `Filter.new_conformsTo` : a new filter conforms;
* `Filter.patch_conformsTo` : a patch of a filter that conforms does;
* `Filter.resolve_conformsTo` : the filter of a stored entry conforms.
-/

namespace Winnow

/-- The default value of every kind is admitted, on whatever day it was made. -/
def Rules.AdmitDefaults (rules : Rules) : Prop :=
  ∀ (kind : FieldKind) (day : Date), kind.admits rules (kind.defaultValue day.isoText) = .ok true

theorem Settings.KeepsRules.admitDefaults {settings : Settings} (h : settings.KeepsRules)
    (hten : Limits.Allows 10 settings.limits.textLength) (today : Date) :
    Rules.AdmitDefaults ⟨today, settings.limits⟩ :=
  fun kind day =>
    FieldKind.admits_defaultValue hten (h.allows_listLength.mono (Nat.zero_le 1)) kind day

theorem Value.normalize_ne_tuple (v : Value) (items : List Value) : v.normalize ≠ .tuple items := by
  cases v <;> exact nofun

theorem Value.normalize_of_ne_tuple {v : Value} (hv : ∀ items, v ≠ .tuple items) :
    v.normalize = v := by
  cases v with
  | tuple items => exact absurd rfl (hv items)
  | _ => rfl

theorem FieldKind.defaultValue_ne_tuple (kind : FieldKind) (today : Text) (items : List Value) :
    kind.defaultValue today ≠ .tuple items := by
  cases kind <;> exact nofun

theorem Definition.mem_of_allowed? {d : Definition} {v : Value} {o : Operator}
    (h : d.allowed? v = some o) : o ∈ d.operators := by
  unfold allowed? at h
  split at h
  · simpa using (Option.filter_eq_some_iff.mp h).2
  · cases h

namespace Filter

/-- The direction is absent or one of the vocabulary. -/
def SortingKnown (f : Filter) : Prop :=
  f.sorting = none ∨ ∃ direction, f.sorting = some (.by direction)

theorem SortingKnown.named {f : Filter} (h : f.SortingKnown) : f.SortingNamed := by
  rcases h with hnone | ⟨d, hsome⟩
  · exact .inl hnone
  · exact .inr ⟨d, by rw [hsome]; rfl⟩

/-- The operator is allowed by the definition, the value is admitted by its kind, and the direction
is absent or one of the vocabulary. -/
structure ConformsTo (rules : Rules) (d : Definition) (f : Filter) : Prop where
  operator : ∃ o ∈ d.operators, f.operator = .known o
  value : d.kind.admits rules f.value = .ok true
  notTuple : ∀ items, f.value ≠ .tuple items
  sorting : f.SortingKnown

variable {rules : Rules} {d : Definition} {f g : Filter}

theorem new_conformsTo (hrules : rules.AdmitDefaults) (d : Definition) (id : Text) (day : Date) :
    ConformsTo rules d
      ⟨id, d.id, .known d.defaultOperator, d.kind.defaultValue day.isoText, none⟩ :=
  ⟨⟨d.defaultOperator, d.default_allowed, rfl⟩, hrules d.kind day,
    d.kind.defaultValue_ne_tuple day.isoText, .inl rfl⟩

/-! ## Patches -/

theorem acceptedSorting_known {v : Value} {sorting : Option Sorting}
    (h : Patch.acceptedSorting v = .ok (some sorting)) :
    sorting = none ∨ ∃ direction, sorting = some (.by direction) := by
  rcases Patch.of_acceptedSorting h with ⟨-, rfl⟩ | ⟨direction, -, rfl⟩
  · exact .inl rfl
  · exact .inr ⟨direction, rfl⟩

theorem acceptedOperator_allowed {v : Value} {choice : OperatorChoice}
    (h : Patch.acceptedOperator (some d) v = .ok (some choice)) :
    ∃ o ∈ d.operators, choice = .known o := by
  obtain ⟨_, o, hd, hallowed, rfl⟩ := Patch.of_acceptedOperator h
  cases hd
  exact ⟨o, Definition.mem_of_allowed? hallowed, rfl⟩

theorem acceptedValue_admitted {v new : Value}
    (h : Patch.acceptedValue rules (some d) v = .ok (some new)) :
    d.kind.admits rules new = .ok true ∧ ∀ items, new ≠ .tuple items := by
  obtain ⟨_, hd, hadmits, rfl⟩ := Patch.of_acceptedValue h
  cases hd
  exact ⟨(FieldKind.admits_normalize d.kind v).trans hadmits, v.normalize_ne_tuple⟩

/-- A patch of a filter, with or without a definition, leaves its direction known. -/
theorem patch_sortingKnown {definition : Option Definition} {p : Patch} (hf : f.SortingKnown)
    (h : p.apply rules definition f = .ok g) : g.SortingKnown := by
  obtain ⟨-, -, -, -, hsorting⟩ := Patch.apply_ok h
  rcases Patch.part_cases hsorting with hkept | ⟨v, -, haccepted⟩
  · unfold SortingKnown
    rwa [hkept]
  · exact acceptedSorting_known haccepted

/-- **A patch keeps a filter conforming**, whatever it asks for. -/
theorem patch_conformsTo {p : Patch} (hf : f.ConformsTo rules d)
    (h : p.apply rules (some d) f = .ok g) : g.ConformsTo rules d := by
  obtain ⟨-, -, hoperator, hvalue, -⟩ := Patch.apply_ok h
  have hallowed : ∃ o ∈ d.operators, g.operator = .known o := by
    rcases Patch.part_cases hoperator with hkept | ⟨v, -, haccepted⟩
    · exact hkept ▸ hf.operator
    · exact acceptedOperator_allowed haccepted
  have hadmitted : d.kind.admits rules g.value = .ok true ∧ ∀ items, g.value ≠ .tuple items := by
    rcases Patch.part_cases hvalue with hkept | ⟨v, -, haccepted⟩
    · rw [hkept]
      exact ⟨hf.value, hf.notTuple⟩
    · exact acceptedValue_admitted haccepted
  exact ⟨hallowed, hadmitted.1, hadmitted.2, patch_sortingKnown hf.sorting h⟩

/-! ## Stored entries -/

theorem entrySorting_known {entries : Value.Entries} {sorting : Option Sorting}
    (h : entrySorting entries = .ok sorting) :
    sorting = none ∨ ∃ direction, sorting = some (.by direction) := by
  unfold entrySorting at h
  split at h
  · cases h; exact .inl rfl
  · cases h; exact .inl rfl
  · obtain ⟨direction, _, h⟩ := Outcome.of_bind_ok h
    cases h
    exact .inr ⟨direction, rfl⟩

/-- **The filter of the parts of an entry.** -/
theorem ofParts_ok {entries : Value.Entries} (h : ofParts entries = .ok f) :
    (∃ v, required "id" entries = .ok v ∧ v.plainText = .ok f.id) ∧
      (∃ v, entryDefinition entries = .ok v ∧ v.plainText = .ok f.definitionId) ∧
      entryOperator entries = .ok f.operator ∧
      f.value = (Value.find? "value" entries).getD .null ∧
      entrySorting entries = .ok f.sorting := by
  obtain ⟨definition, hdefinition, h⟩ := Outcome.of_bind_ok h
  obtain ⟨operator, hoperator, h⟩ := Outcome.of_bind_ok h
  obtain ⟨idValue, hidValue, h⟩ := Outcome.of_bind_ok h
  obtain ⟨id, hid, h⟩ := Outcome.of_bind_ok h
  obtain ⟨definitionId, hdefinitionId, h⟩ := Outcome.of_bind_ok h
  obtain ⟨sorting, hsorting, h⟩ := Outcome.of_bind_ok h
  cases h
  exact ⟨⟨idValue, hidValue, hid⟩, ⟨definition, hdefinition, hdefinitionId⟩, hoperator, rfl, hsorting⟩

theorem ofEntry_sorting {entry : Value} (h : ofEntry entry = .ok f) : f.SortingKnown := by
  unfold ofEntry at h
  split at h
  · obtain ⟨-, -, -, -, hsorting⟩ := ofParts_ok h
    exact entrySorting_known hsorting
  · cases h

/-- A repair leaves the ids and the direction alone, and makes the rest conform. -/
theorem repaired_conformsTo (hrules : rules.AdmitDefaults) (hsorting : f.SortingKnown)
    (h : f.repaired rules d = .ok g) :
    g.definitionId = f.definitionId ∧ g.ConformsTo rules d := by
  unfold repaired at h
  obtain ⟨admitted, hadmits, h⟩ := Outcome.of_bind_ok h
  cases h
  refine ⟨rfl, ?_, ?_, ?_, hsorting⟩
  · cases hallowed : d.allowed? f.operator.value with
    | none => exact ⟨d.defaultOperator, d.default_allowed, rfl⟩
    | some o => exact ⟨o, Definition.mem_of_allowed? hallowed, rfl⟩
  · cases admitted with
    | false => exact hrules d.kind rules.today
    | true => exact (FieldKind.admits_normalize d.kind f.value).trans hadmits
  · cases admitted with
    | false => exact d.kind.defaultValue_ne_tuple rules.today.isoText
    | true => exact f.value.normalize_ne_tuple

/-- **The filter of a stored entry has a definition, and conforms to it.** -/
theorem resolve_conformsTo (hrules : rules.AdmitDefaults) {c : Catalog} {entry : Value}
    (h : resolve c rules entry = .ok f) :
    ∃ d, c.find? f.definitionId = some d ∧ f.ConformsTo rules d := by
  unfold resolve at h
  obtain ⟨read, hread, h⟩ := Outcome.of_bind_ok h
  split at h
  · cases h
  · rename_i d hdefinition
    obtain ⟨hid, hconforms⟩ := repaired_conformsTo hrules (ofEntry_sorting hread) h
    exact ⟨d, hid ▸ hdefinition, hconforms⟩

theorem resolve_sortingKnown {c : Catalog} {entry : Value} (h : resolve c rules entry = .ok f) :
    f.SortingKnown := by
  unfold resolve at h
  obtain ⟨read, hread, h⟩ := Outcome.of_bind_ok h
  split at h
  · cases h
  · unfold repaired at h
    obtain ⟨admitted, _, h⟩ := Outcome.of_bind_ok h
    cases h
    have hknown : read.SortingKnown := ofEntry_sorting hread
    exact hknown

end Filter

end Winnow

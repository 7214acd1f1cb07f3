import Winnow.Composer
import Winnow.Proofs.Filter.Entry
import Winnow.Proofs.FilterSet.Invariant
import Winnow.Proofs.Json.Visible

/-!
# Sets that outlive their store

A set with the invariant is written as a text, and the bytes of the text are decoded to a set with
the same filters.  Its JSON is visible ASCII, so the bytes are decoded to the text; the text is read
as the entries that were written; each entry makes its filter again, and none is dropped because the
ids are distinct.

* `FilterSet.Storable` : what a stored text keeps;
* `FilterSet.deserialize_serialize` : a set with the invariant is read back;
* `Composer.onStore_apply` : so it is by another composer on the same store;
* `FilterSet.run_of_settings_stored` : both hold after every run of edits.
-/

namespace Winnow

open Outcome

namespace FilterSet

/-- The texts of a set hold no surrogates, and its integers have no more digits than are
converted. -/
def Storable (s : FilterSet) : Prop := ∀ f ∈ s.filters, f.Storable

/-- A blob is decoded to an equal set with the same filters, whatever ids are drawn later. -/
def IsHeldBy (c : Catalog) (rules : Rules) (s : FilterSet) (blob : Blob) : Prop :=
  ∀ tokens, ∃ t, deserialize c rules tokens blob = .ok t ∧ t.filters = s.filters ∧
    t.equals s = true

variable {c : Catalog} {rules : Rules} {s : FilterSet}

/-! ## Equality -/

theorem equalLists_self {filters : List Filter} (h : ∀ f ∈ filters, f.value.IsPlain)
    (hknown : ∀ f ∈ filters, ∃ o, f.operator = .known o) :
    Filter.equalLists filters filters = true := by
  induction filters with
  | nil => rfl
  | cons f fs ih =>
    obtain ⟨o, ho⟩ := hknown f List.mem_cons_self
    have hoperator : f.operator.value.equals f.operator.value = true := by
      rw [ho]
      exact (Value.IsItem.text _).equals_self
    have hvalue := (h f List.mem_cons_self).equals_self
    have hrest := ih (fun g hg => h g (List.mem_cons_of_mem f hg))
      fun g hg => hknown g (List.mem_cons_of_mem f hg)
    rw [Filter.equalLists, Filter.equals, hoperator, hvalue, hrest]
    simp only [beq_self_eq_true, Bool.and_self]

theorem Invariant.equalLists_self (hs : s.Invariant c rules) :
    Filter.equalLists s.filters s.filters = true := by
  refine FilterSet.equalLists_self (fun f hf => ?_) fun f hf => ?_
  · obtain ⟨d, _, hconforms⟩ := hs.bound f hf
    exact FieldKind.isPlain_of_admits hconforms.value hconforms.notTuple
  · obtain ⟨d, _, hconforms⟩ := hs.bound f hf
    obtain ⟨o, _, ho⟩ := hconforms.operator
    exact ⟨o, ho⟩

/-! ## Writing and reading -/

/-- The filters of a set have entries that can be written and make the filters again. -/
theorem exists_entries {filters : List Filter}
    (hbound : ∀ f ∈ filters, ∃ d, c.find? f.definitionId = some d ∧ f.ConformsTo rules d)
    (hstorable : ∀ f ∈ filters, f.Storable) :
    ∃ items, filters.mapM Filter.entry = .ok items ∧ (∀ v ∈ items, Json.Writable 2 v) ∧
      List.Forall₂ (fun item f => Filter.resolve c rules item = .ok f) items filters := by
  induction filters with
  | nil => exact ⟨[], rfl, nofun, .nil⟩
  | cons f fs ih =>
    obtain ⟨d, hdefinition, hconforms⟩ := hbound f List.mem_cons_self
    obtain ⟨item, hentry, hwritable, hresolve⟩ :=
      Filter.resolve_entry hdefinition hconforms (hstorable f List.mem_cons_self)
    obtain ⟨items, hitems, hwritables, hresolves⟩ :=
      ih (fun g hg => hbound g (List.mem_cons_of_mem f hg))
        fun g hg => hstorable g (List.mem_cons_of_mem f hg)
    refine ⟨item :: items, ?_, ?_, .cons hresolve hresolves⟩
    · rw [List.mapM_cons, hentry, hitems]
      rfl
    · intro v hv
      rcases List.mem_cons.mp hv with rfl | hv
      · exact hwritable
      · exact hwritables v hv

/-- The items of the bytes of a text are those that the text was written from. -/
theorem storedItems_utf8 {items : List Value} (hitems : ∀ v ∈ items, Json.Writable 2 v) :
    ∃ t, (Value.list items).json .line = .ok t ∧ storedItems (.bytes t.utf8) = .ok items := by
  have hwritable := Json.Writable.list hitems
  obtain ⟨t, ht⟩ := Json.exists_jsonAt .line hwritable 0
  refine ⟨t, ht, ?_⟩
  have hread := Json.readUnmarked_json (by decide) hwritable ht (List.forall_mem_nil _)
  rw [List.append_nil] at hread
  have hdecode : Bytes.decode t.utf8 = .ok t := Bytes.decode_utf8 (Json.visible_jsonAt _ ht)
  have hjson : (Blob.bytes t.utf8).json = .ok (t, .ok (.list items)) := by
    rw [Blob.json, hdecode, ← hread]
    rfl
  have hvalue : storedValue (.bytes t.utf8) = .ok (.list items) := by
    unfold storedValue
    rw [hjson]
  unfold storedItems
  rw [hvalue]
  rfl

/-- **A set with the invariant is written as a text whose bytes hold it.** -/
theorem deserialize_serialize (hs : s.Invariant c rules) (hstorable : s.Storable) :
    ∃ t, s.serialize = .ok t ∧ (Blob.bytes t.utf8).isEmpty = false ∧
      s.IsHeldBy c rules (.bytes t.utf8) := by
  obtain ⟨items, hentries, hwritable, hresolve⟩ := exists_entries hs.bound hstorable
  obtain ⟨t, ht, hitems⟩ := storedItems_utf8 hwritable
  have hserialize : s.serialize = .ok t := by
    unfold serialize entries
    rw [hentries]
    exact ht
  have hfull : (Blob.bytes t.utf8).isEmpty = false := by
    cases hbytes : t.utf8 with
    | nil =>
      rw [hbytes] at hitems
      cases hitems
    | cons b bs => rfl
  have hfilters := storedFilters_of_resolved hresolve hs.ids.distinct
  refine ⟨t, hserialize, hfull, fun tokens => ?_⟩
  refine ⟨ofFilters c tokens rules.today.isoText s.filters, ?_, rfl, hs.equalLists_self⟩
  rw [deserialize_eq hitems, hfilters]
  rfl

/-- A blob that is decoded is what a store with it gives. -/
theorem hydrate_of_deserialize {tokens : Tokens} {blob : Blob} {t : FilterSet}
    (hfull : blob.isEmpty = false) (h : deserialize c rules tokens blob = .ok t) :
    hydrate c rules tokens (.ok (some blob)) = .ok t := by
  unfold hydrate
  simp only [hfull, Bool.false_eq_true, if_false, h]

end FilterSet

/-! ## Another composer on the store -/

namespace Composer

variable {c : Catalog} {rules : Rules}

/-- **After a set was applied, another composer on the store has it**, also if logging its query
failed. -/
theorem onStore_apply {composer : Composer} (hs : composer.set.Invariant c rules)
    (hstorable : composer.set.Storable) (hloads : composer.store.refusal = none)
    (around : Surroundings) (tokens : Tokens) :
    ∃ other, onStore c rules tokens (composer.apply around).2.store = .ok other ∧
      other.set.filters = composer.set.filters ∧ other.set.equals composer.set = true := by
  obtain ⟨t, hserialize, hfull, hheld⟩ := FilterSet.deserialize_serialize hs hstorable
  obtain ⟨s, hdecoded, hfilters, hequal⟩ := hheld tokens
  have hstore : (composer.apply around).2.store = composer.store.save t.utf8 := by
    unfold apply persist
    rw [hserialize]
  have hload : (composer.store.save t.utf8).load = .ok (some (.bytes t.utf8)) := by
    unfold MemoryStore.load MemoryStore.save
    rw [hloads]
  refine ⟨⟨s, .idle, composer.store.save t.utf8⟩, ?_, hfilters, hequal⟩
  have hhydrate := FilterSet.hydrate_of_deserialize hfull hdecoded
  unfold onStore
  rw [hstore, hload, hhydrate]
  rfl

end Composer

namespace FilterSet

/-- A city that is not spelled in ASCII, with a direction, and two salaries of different types. -/
def citySalaryEdits : List Edit :=
  [.compose (default : Date).isoText (.text "city"),
    .update (.text "city_000000000001") ⟨none, some (.text "Zürich"), some (.text "asc")⟩,
    .compose (default : Date).isoText (.text "salary"),
    .update (.text "salary_000000000002")
      ⟨some (.text "between"), some (.list [.int 7, .float (.number true 1)]), none⟩]

set_option maxRecDepth 8000 in
theorem citySalaryEdits_storable :
    ((ofFilters Employees.catalog ⟨[], 0⟩ [] []).run ⟨default, Settings.bundled.limits⟩
      citySalaryEdits).Storable := by
  intro f hf
  have hmem : f ∈ [⟨"city_000000000001", "city", .known .equals, .text "Zürich",
        some (.by .ascending)⟩,
      ⟨"salary_000000000002", "salary", .known .between, .list [.int 7, .float (.number true 1)],
        none⟩] := hf
  simp only [List.mem_cons, List.not_mem_nil, or_false] at hmem
  rcases hmem with rfl | rfl
  · exact ⟨Json.isScalar_ofString _, Json.isScalar_ofString _,
      .text (Json.isScalar_ofString _)⟩
  · refine ⟨Json.isScalar_ofString _, Json.isScalar_ofString _, .list fun v hv => ?_⟩
    simp only [List.mem_cons, List.not_mem_nil, or_false] at hv
    rcases hv with rfl | rfl
    · exact .int (by decide)
    · exact .float _

end FilterSet

end Winnow

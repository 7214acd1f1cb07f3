import Winnow.Proofs.Composer.Views
import Winnow.Proofs.Json.Printing

/-!
# Printing the forms of stored filters

A list of filters is shown as a query, as flat parameters, or as a payload with the time at which it
was made.  For filters as they are read from a blob each of these is a value as a JSON text holds
it, with surrogates in it exactly if the value of a filter has some.

* `Query.valueText_shows` : the text of a value has surrogates exactly if the value has some;
* `Query.IsFormOf` : a value is a form of some filters;
* `Query.wire_isForm`, `Query.params_isForm`, `Query.payload_isForm` : the three forms;
* `FilterSet.Presentable.regular`, `FilterSet.Presentable.storable_stated` : the filters of a set, as
  they stand in its query.
-/

namespace Winnow

open Outcome
open Json (Fits Shows IsScalar isScalar_ofString storable_list_iff storable_object_iff
  storable_text_iff)

/-! ## Values -/

namespace Value

theorem IsItem.fits {v : Value} (hv : v.IsItem) (hshort : v.HasShortIntegers) (depth : Nat) :
    Fits depth v := by
  cases hv with
  | bool b => exact .bool b
  | int n =>
    cases hshort with
    | int hn => exact .int hn
  | float _ => exact .float _
  | text t => exact .text t

theorem IsPlain.fits {v : Value} (hv : v.IsPlain) (hshort : v.HasShortIntegers) : Fits 1 v := by
  cases hv with
  | null => exact .null
  | item hv => exact hv.fits hshort 1
  | list hitems =>
    cases hshort with
    | list hshort => exact .list fun v hv => (hitems v hv).fits (hshort v hv) 0

/-- The text of a single value has surrogates exactly if the value has some. -/
theorem IsItem.toText_shows {v : Value} (hv : v.IsItem) (hshort : v.HasShortIntegers) {t : Text}
    (ht : v.toText = .ok t) : Shows v t := by
  cases hv with
  | bool b =>
    cases ht
    exact iff_of_true (by cases b <;> rfl) (.bool b)
  | int n =>
    cases hshort with
    | int hn => exact iff_of_true (Json.visible_ofInt ht).isScalar (.int hn)
  | @float x hx =>
    refine iff_of_true ?_ (.float x)
    unfold toText at ht
    split at ht
    · exact (Json.visible_ofInt ht).isScalar
    · cases ht
      exact Text.isScalar_ofChars _
  | text t =>
    cases ht
    exact storable_text_iff.symm

theorem itemTexts_show {items : List Value} (hitems : ∀ v ∈ items, v.IsItem)
    (hshort : ∀ v ∈ items, v.HasShortIntegers) {ts : List Text} (hts : itemTexts items = .ok ts) :
    ts.all Text.isScalar = true ↔ ∀ v ∈ items, v.Storable := by
  induction items generalizing ts with
  | nil =>
    cases hts
    exact iff_of_true rfl (List.forall_mem_nil _)
  | cons v vs ih =>
    obtain ⟨hv, hvs⟩ := List.forall_mem_cons.mp hitems
    obtain ⟨hvshort, hvsshort⟩ := List.forall_mem_cons.mp hshort
    rw [itemTexts] at hts
    obtain ⟨t, ht, hts⟩ := of_bind_ok hts
    obtain ⟨us, hus, hts⟩ := of_bind_ok hts
    cases hts
    rw [List.all_cons, Bool.and_eq_true, ih hvs hvsshort hus, List.forall_mem_cons]
    exact and_congr_left' (hv.toText_shows hvshort ht)

end Value

namespace Query

/-- **The text of a value as a parameter has surrogates exactly if the value has some.** -/
theorem valueText_shows {v : Value} (hv : v.IsPlain) (hshort : v.HasShortIntegers)
    {separator t : Text} (hseparator : separator.isScalar = true)
    (ht : valueText (.text separator) v = .ok t) : Shows v t := by
  cases hv with
  | null =>
    cases ht
    exact iff_of_true rfl .null
  | item hv =>
    have htext : v.toText = .ok t := by cases hv <;> exact ht
    exact hv.toText_shows hshort htext
  | @list items hitems =>
    cases hshort with
    | list hshort =>
      rw [valueText, Separator.join] at ht
      cases hts : Value.itemTexts items with
      | error fault =>
        rw [hts] at ht
        cases ht
      | ok ts =>
        rw [hts] at ht
        cases ht
        rw [Shows, Json.isScalar_intercalate hseparator, Value.itemTexts_show hitems hshort hts,
          storable_list_iff]

end Query

/-! ## Filters in a query -/

/-- A filter of a query whose field is without surrogates, with an operator of the vocabulary, and
with a value that a kind admits and that has no integer of too many digits. -/
structure QueryFilter.Regular (f : QueryFilter) : Prop where
  field : f.field.isScalar = true
  operator : ∃ o, f.operator = .known o
  value : f.value.IsPlain
  short : f.value.HasShortIntegers

theorem Operator.storable_word (o : Operator) : (Value.text o.word).Storable :=
  .text o.isScalar_word

theorem Direction.storable_word (d : Direction) : (Value.text d.word).Storable :=
  .text d.isScalar_word

namespace QueryFilter

variable {f : QueryFilter}

/-- The entries of a filter for transport. -/
theorem wire_eq (f : QueryFilter) : f.wire = .object
    (("field", .text f.field) :: ("operator", f.operator.value) :: ("value", f.value) ::
      (f.direction.map fun d => (("sortDirection" : Text), Value.text d.word)).toList) := by
  unfold wire
  cases f.direction <;> rfl

theorem Regular.wire_fits (hf : f.Regular) : Fits 2 f.wire := by
  obtain ⟨o, ho⟩ := hf.operator
  rw [wire_eq, ho]
  refine .object ?_ ?_
  · cases f.direction with
    | none =>
      show [("field" : Text), "operator", "value"].Nodup
      decide
    | some d =>
      show [("field" : Text), "operator", "value", "sortDirection"].Nodup
      decide
  · simp only [List.forall_mem_cons]
    refine ⟨.text _, .text _, hf.value.fits hf.short, fun e he => ?_⟩
    obtain ⟨d, -, rfl⟩ := Option.map_eq_some_iff.mp (Option.mem_toList.mp he)
    exact .text _

/-- A filter for transport has surrogates exactly if its value has some. -/
theorem Regular.storable_wire (hf : f.Regular) : f.wire.Storable ↔ f.value.Storable := by
  obtain ⟨o, ho⟩ := hf.operator
  rw [wire_eq, ho, storable_object_iff]
  simp only [List.forall_mem_cons]
  constructor
  · exact fun h => h.2.2.2.1
  · intro hvalue
    refine ⟨⟨isScalar_ofString _, isScalar_ofString _, isScalar_ofString _, fun e he => ?_⟩,
      storable_text_iff.mpr hf.field, o.storable_word, hvalue, fun e he => ?_⟩
    · obtain ⟨d, -, rfl⟩ := Option.map_eq_some_iff.mp (Option.mem_toList.mp he)
      exact isScalar_ofString _
    · obtain ⟨d, -, rfl⟩ := Option.map_eq_some_iff.mp (Option.mem_toList.mp he)
      exact d.storable_word

end QueryFilter

namespace Query

variable {fs : List QueryFilter} {v : Value}

/-- A value is a form of some filters: it is as a JSON text holds it, and has surrogates exactly if
the value of one of the filters has some. -/
structure IsFormOf (fs : List QueryFilter) (v : Value) : Prop where
  fits : Fits Json.nestingLimit v
  storable : v.Storable ↔ ∀ f ∈ fs, f.value.Storable

/-! ## Queries -/

/-- The entries of a query for transport. -/
theorem wire_eq (q : Query) : q.wire = .object
    (("filters", .list (q.filters.map QueryFilter.wire)) ::
      if q.sort.isEmpty then [] else [("sort", .list (q.sort.map SortKey.wire))]) := rfl

theorem sort_regular (hfs : ∀ f ∈ fs, f.Regular) {key : SortKey}
    (hkey : key ∈ (ofQueryFilters fs).sort) (depth : Nat) :
    Fits (depth + 1) key.wire ∧ key.wire.Storable := by
  obtain ⟨f, hf, hdirection⟩ := List.mem_filterMap.mp hkey
  obtain ⟨d, -, rfl⟩ := Option.map_eq_some_iff.mp hdirection
  refine ⟨.object ?_ ?_, .object ?_ ?_⟩
  · show [("field" : Text), "direction"].Nodup
    decide
  · simp only [List.forall_mem_cons]
    exact ⟨.text _, .text _, List.forall_mem_nil _⟩
  · simp only [List.forall_mem_cons]
    exact ⟨isScalar_ofString _, isScalar_ofString _, List.forall_mem_nil _⟩
  · simp only [List.forall_mem_cons]
    exact ⟨storable_text_iff.mpr (hfs f hf).field, d.storable_word, List.forall_mem_nil _⟩

theorem storable_filters (hfs : ∀ f ∈ fs, f.Regular) :
    (Value.list (fs.map QueryFilter.wire)).Storable ↔ ∀ f ∈ fs, f.value.Storable := by
  rw [storable_list_iff, List.forall_mem_map]
  exact forall₂_congr fun f hf => (hfs f hf).storable_wire

theorem wire_fits (hfs : ∀ f ∈ fs, f.Regular) : Fits 4 (ofQueryFilters fs).wire := by
  have hfilters : Fits 3 (.list (fs.map QueryFilter.wire)) :=
    .list (List.forall_mem_map.mpr fun f hf => (hfs f hf).wire_fits)
  have hsort : Fits 3 (.list ((ofQueryFilters fs).sort.map SortKey.wire)) :=
    .list (List.forall_mem_map.mpr fun key hkey => (sort_regular hfs hkey 1).1)
  rw [wire_eq]
  refine .object ?_ ?_
  · split
    · exact List.nodup_singleton _
    · show [("filters" : Text), "sort"].Nodup
      decide
  · rw [List.forall_mem_cons]
    refine ⟨hfilters, ?_⟩
    split
    · exact List.forall_mem_nil _
    · exact List.forall_mem_singleton.mpr hsort

theorem storable_wire (hfs : ∀ f ∈ fs, f.Regular) :
    (ofQueryFilters fs).wire.Storable ↔ ∀ f ∈ fs, f.value.Storable := by
  have hsort : (Value.list ((ofQueryFilters fs).sort.map SortKey.wire)).Storable :=
    .list (List.forall_mem_map.mpr fun key hkey => (sort_regular hfs hkey 1).2)
  rw [wire_eq, storable_object_iff, List.forall_mem_cons, List.forall_mem_cons,
    show (ofQueryFilters fs).filters = fs from rfl, storable_filters hfs]
  refine ⟨fun h => h.2.1, fun h => ⟨⟨isScalar_ofString _, ?_⟩, h, ?_⟩⟩
  · split
    · exact List.forall_mem_nil _
    · exact List.forall_mem_singleton.mpr (isScalar_ofString _)
  · split
    · exact List.forall_mem_nil _
    · exact List.forall_mem_singleton.mpr hsort

/-- **The query of filters for transport is a form of them.** -/
theorem wire_isForm (hfs : ∀ f ∈ fs, f.Regular) : IsFormOf fs (ofQueryFilters fs).wire :=
  ⟨(wire_fits hfs).mono (by decide), storable_wire hfs⟩

/-! ## Parameters -/

theorem isScalar_paramKey (index : Nat) (part : Part) :
    ∀ c ∈ paramKey index part, IsScalar c := by
  refine Text.isScalar_iff.mp ?_
  have hdigits : (Numeral.digits index).isScalar = true := Text.isScalar_ofChars _
  have hword : Text.isScalar (.scalar '_' :: part.word) = true := by cases part <;> rfl
  rw [paramKey, Text.isScalar_append, Text.isScalar_append, hdigits, hword]
  rfl

/-- The value of a parameter is a text, in which only the value of the filter brings surrogates. -/
theorem part?_text {f : QueryFilter} (hf : f.Regular) {separator : Text}
    (hseparator : separator.isScalar = true) {part : Part}
    (h : f.part? (.text separator) part = some v) :
    ∃ t, v = .text t ∧ if part = .value then Shows f.value t else t.isScalar = true := by
  obtain ⟨o, ho⟩ := hf.operator
  cases part with
  | field =>
    cases h
    exact ⟨_, rfl, hf.field⟩
  | operator =>
    rw [QueryFilter.part?, ho] at h
    cases h
    exact ⟨_, rfl, storable_text_iff.mp o.storable_word⟩
  | value =>
    obtain ⟨t, ht⟩ := hf.value.valueText_ok hf.short separator
    rw [QueryFilter.part?, ht] at h
    cases h
    exact ⟨t, rfl, valueText_shows hf.value hf.short hseparator ht⟩
  | sort =>
    obtain ⟨d, -, rfl⟩ := Option.map_eq_some_iff.mp h
    exact ⟨_, rfl, storable_text_iff.mp d.storable_word⟩

theorem storable_part? {f : QueryFilter} (hf : f.Regular) {separator : Text}
    (hseparator : separator.isScalar = true) {part : Part} (hvalue : f.value.Storable)
    (h : f.part? (.text separator) part = some v) : v.Storable := by
  obtain ⟨t, rfl, hshows⟩ := part?_text hf hseparator h
  refine storable_text_iff.mpr ?_
  split at hshows
  · exact hshows.mpr hvalue
  · exact hshows

/-- **The parameters of filters are a form of them.** -/
theorem params_isForm (hfs : ∀ f ∈ fs, f.Regular) {separator : Text}
    (hseparator : separator.isScalar = true) :
    ∃ entries, (ofQueryFilters fs).params (.text separator) = .ok entries ∧
      IsFormOf fs (.object entries) := by
  have htexts : ∀ f ∈ fs, ∃ t, valueText (.text separator) f.value = .ok t :=
    fun f hf => (hfs f hf).value.valueText_ok (hfs f hf).short separator
  obtain ⟨entries, hentries⟩ : ∃ entries,
      (ofQueryFilters fs).params (.text separator) = .ok entries :=
    ⟨_, paramsFrom_ok_iff.mpr ⟨htexts, rfl⟩⟩
  have hparts : ∀ e ∈ entries, ∃ index part, ∃ f ∈ fs, e.1 = paramKey index part ∧
      f.part? (.text separator) part = some e.2 := by
    intro e he
    have hfind := (Value.find?_eq_some_iff (nodup_keys hentries)).mpr he
    obtain ⟨index, part, f, hf, hkey, hpart⟩ := (find?_params hentries).mp hfind
    exact ⟨index, part, f, List.mem_of_getElem? hf, hkey, hpart⟩
  have hfits : Fits 1 (.object entries) := by
    refine .object (nodup_keys hentries) fun e he => ?_
    obtain ⟨index, part, f, hf, -, hpart⟩ := hparts e he
    obtain ⟨t, ht, -⟩ := part?_text (hfs f hf) hseparator hpart
    rw [ht]
    exact .text t
  refine ⟨entries, hentries, hfits.mono (by decide), ?_⟩
  rw [storable_object_iff]
  constructor
  · rintro ⟨-, hvalues⟩ f hf
    obtain ⟨index, hindex⟩ := List.mem_iff_getElem?.mp hf
    obtain ⟨t, ht⟩ := htexts f hf
    have hpart : f.part? (.text separator) .value = some (.text t) := by
      rw [QueryFilter.part?, ht]
      rfl
    have hfind := (find?_paramKey hentries hindex .value).trans hpart
    have hmem := (Value.find?_eq_some_iff (nodup_keys hentries)).mp hfind
    exact (valueText_shows (hfs f hf).value (hfs f hf).short hseparator ht).mp
      (storable_text_iff.mp (hvalues _ hmem))
  · intro hvalues
    refine ⟨fun e he => ?_, fun e he => ?_⟩
    · obtain ⟨index, part, f, -, hkey, -⟩ := hparts e he
      rw [hkey]
      exact isScalar_paramKey index part
    · obtain ⟨index, part, f, hf, -, hpart⟩ := hparts e he
      exact storable_part? (hfs f hf) hseparator (hvalues f hf) hpart

/-! ## Payloads -/

/-- **The payload of filters is a form of them.** -/
theorem payload_isForm {c : Catalog} {now : Moment} {filters : List Filter}
    (hquery : ofFilters c filters = .ok (ofQueryFilters fs)) (hfs : ∀ f ∈ fs, f.Regular)
    {t : Text} (htime : timestamp now = .ok t) (hscalar : t.isScalar = true) :
    ∃ v, payload c now filters = .ok v ∧ IsFormOf fs v := by
  have hfits : Fits 5 (.object [("query", (ofQueryFilters fs).wire), ("timestamp", .text t)]) := by
    refine .object ?_ ?_
    · show [("query" : Text), "timestamp"].Nodup
      decide
    · simp only [List.forall_mem_cons]
      exact ⟨wire_fits hfs, .text t, List.forall_mem_nil _⟩
  refine ⟨_, ?_, hfits.mono (by decide), ?_⟩
  · unfold payload
    rw [hquery, htime]
    rfl
  · rw [storable_object_iff]
    simp only [List.forall_mem_cons, storable_wire hfs]
    exact ⟨fun h => h.2.1, fun h => ⟨⟨isScalar_ofString _, isScalar_ofString _,
      List.forall_mem_nil _⟩, h, storable_text_iff.mpr hscalar, List.forall_mem_nil _⟩⟩

end Query

/-! ## Sets -/

namespace FilterSet

variable {c : Catalog} {s : FilterSet}

theorem Presentable.regular (hs : s.Presentable c)
    (hfields : ∀ d ∈ c.definitions, d.field.isScalar = true) :
    ∀ f ∈ (c.bind s.filters).map Filter.stated, f.Regular := by
  refine List.forall_mem_map.mpr fun f hf => ?_
  have hpresentable := hs.of_mem_bind (hs.catalog ▸ hf)
  obtain ⟨-, -, hmem⟩ := Catalog.mem_of_mem_bind hf
  exact ⟨hfields f.2 hmem, hpresentable.operator, hpresentable.value.isPlain, hpresentable.short⟩

/-- Every filter of a set that can be shown stands in its query. -/
theorem Presentable.storable_stated (hs : s.Presentable c) :
    (∀ f ∈ (c.bind s.filters).map Filter.stated, f.value.Storable) ↔
      ∀ f ∈ s.filters, f.value.Storable := by
  rw [List.forall_mem_map]
  constructor
  · intro h f hf
    obtain ⟨d, hdefinition, -⟩ := hs.bound f hf
    refine h (f, d) (List.mem_filterMap.mpr ⟨f, hf, ?_⟩)
    rw [hdefinition]
    rfl
  · exact fun h f hf => h f.1 (Catalog.mem_of_mem_bind hf).1

end FilterSet

end Winnow

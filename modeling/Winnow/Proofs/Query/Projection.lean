import Mathlib.Data.List.Nodup
import Winnow.Catalog.Employees
import Winnow.Proofs.Evaluation.Sorting
import Winnow.Proofs.Query.RoundTrip
import Winnow.Proofs.Value.Entries

/-!
# The projections of a list of filters

A list of filters is shown as a query and as flat parameters, and it sorts records.  All three take
the filters that have a definition, in their order, and find the same directions in them.

* `Query.paramKey_inj` : the key of a parameter tells the index and the part of a filter;
* `QueryFilter.part?`, `QueryFilter.partParams` : the parts that a filter has, and their parameters;
* `Query.paramsFrom_ok_iff` : the parameters of filters are those of their parts, one filter after
  the other, and they exist if the values have texts;
* `Query.nodup_keys` : no parameter replaces another one;
* `Query.find?_paramKey` : so the value of the key of a part is that part;
* `Query.projections_agree` : the query, the parameters and the sort of a list of filters.
-/

namespace Winnow

open Outcome

/-! ## The parts of a filter -/

/-- The value of the parameter for a part of a filter, if the filter has that part. -/
def QueryFilter.part? (separator : Separator) (f : QueryFilter) : Query.Part → Option Value
  | .field => some (.text f.field)
  | .operator => some f.operator.value
  | .value => (Query.valueText separator f.value).toOption.map .text
  | .sort => f.direction.map fun d => .text d.word

/-- The parameters of the parts that a filter has. -/
def QueryFilter.partParams (separator : Separator) (index : Nat) (f : QueryFilter) :
    Value.Entries :=
  Query.Part.all.filterMap fun part =>
    (f.part? separator part).map (Query.paramKey index part, ·)

namespace Query

variable {separator : Separator} {f : QueryFilter} {fs : List QueryFilter} {key : Text} {v : Value}

theorem Part.mem_all (part : Part) : part ∈ Part.all := by cases part <;> decide

theorem Part.nodup_all : Part.all.Nodup := by decide

/-- **The key of a parameter tells the index and the part.** -/
theorem paramKey_inj {i j : Nat} {p q : Part} :
    paramKey i p = paramKey j q ↔ i = j ∧ p = q := by
  refine ⟨fun h => ?_, fun ⟨hi, hp⟩ => by rw [hi, hp]⟩
  have hsplit := congrArg splitKey? h
  rw [splitKey?_paramKey, splitKey?_paramKey, Option.some.injEq, Prod.mk.injEq] at hsplit
  exact ⟨Numeral.digits_injective hsplit.1, hsplit.2⟩

theorem mem_partParams {index : Nat} :
    (key, v) ∈ f.partParams separator index ↔
      ∃ part, key = paramKey index part ∧ f.part? separator part = some v := by
  unfold QueryFilter.partParams
  simp only [List.mem_filterMap, Option.map_eq_some_iff, Prod.mk.injEq]
  constructor
  · rintro ⟨part, -, w, hpart, hkey, rfl⟩
    exact ⟨part, hkey.symm, hpart⟩
  · rintro ⟨part, hkey, hpart⟩
    exact ⟨part, part.mem_all, v, hpart, hkey.symm, rfl⟩

/-- The parts of a filter have different keys. -/
theorem nodup_keys_partParams (separator : Separator) (index : Nat) (f : QueryFilter) :
    ((f.partParams separator index).map Prod.fst).Nodup := by
  unfold QueryFilter.partParams
  rw [List.map_filterMap]
  refine List.Nodup.filterMap ?_ Part.nodup_all
  intro p q key hp hq
  simp only [Option.mem_def, Option.map_map, Option.map_eq_some_iff, Function.comp_apply] at hp hq
  obtain ⟨_, -, rfl⟩ := hp
  obtain ⟨_, -, hkey⟩ := hq
  exact (paramKey_inj.mp hkey).2.symm

/-- A filter has parameters exactly if its value has a text, and they are those of its parts. -/
theorem filterParams_ok_iff {index : Nat} {entries : Value.Entries} :
    filterParams separator index f = .ok entries ↔
      (∃ t, valueText separator f.value = .ok t) ∧ entries = f.partParams separator index := by
  cases htext : valueText separator f.value with
  | error fault =>
    have hfails : filterParams separator index f = .error fault := by
      rw [filterParams, htext]
      rfl
    rw [hfails]
    refine iff_of_false nofun fun h => ?_
    obtain ⟨⟨t, ht⟩, -⟩ := h
    cases ht
  | ok t =>
    have hparts : filterParams separator index f = .ok (f.partParams separator index) := by
      rw [filterParams, htext]
      simp only [QueryFilter.partParams, Part.all, List.filterMap_cons, QueryFilter.part?, htext,
        Except.toOption, Option.map_some]
      cases f.direction <;> rfl
    rw [hparts, Except.ok.injEq]
    exact ⟨fun h => ⟨⟨t, rfl⟩, h.symm⟩, fun h => h.2.symm⟩

/-! ## The parameters of a query -/

/-- **The parameters of filters are those of their parts**, one filter after the other; they exist
exactly if the values have texts. -/
theorem paramsFrom_ok_iff {index : Nat} {entries : Value.Entries} :
    paramsFrom separator index fs = .ok entries ↔
      (∀ f ∈ fs, ∃ t, valueText separator f.value = .ok t) ∧
        entries = (fs.zipIdx index).flatMap fun f => f.1.partParams separator f.2 := by
  induction fs generalizing index entries with
  | nil =>
    refine ⟨fun h => ⟨nofun, (Except.ok.inj h).symm⟩, fun h => ?_⟩
    rw [h.2]
    rfl
  | cons f fs ih =>
    rw [paramsFrom, List.forall_mem_cons, List.zipIdx_cons, List.flatMap_cons]
    constructor
    · intro h
      obtain ⟨first, hfirst, h⟩ := of_bind_ok h
      obtain ⟨rest, hrest, h⟩ := of_bind_ok h
      cases h
      obtain ⟨htext, rfl⟩ := filterParams_ok_iff.mp hfirst
      obtain ⟨htexts, rfl⟩ := ih.mp hrest
      exact ⟨⟨htext, htexts⟩, rfl⟩
    · rintro ⟨⟨htext, htexts⟩, rfl⟩
      rw [filterParams_ok_iff.mpr ⟨htext, rfl⟩, ih.mpr ⟨htexts, rfl⟩]
      rfl

variable {q : Query} {entries : Value.Entries}

/-- **No parameter replaces another one**: the keys of different filters have different indices, and
those of one filter name different parts. -/
theorem nodup_keys (h : q.params separator = .ok entries) : (entries.map Prod.fst).Nodup := by
  obtain ⟨-, rfl⟩ := paramsFrom_ok_iff.mp h
  rw [List.map_flatMap, List.nodup_flatMap]
  constructor
  · intro f _
    exact nodup_keys_partParams separator f.2 f.1
  · -- Two filters may be equal, so they are told apart by the indices that they come with.
    have hindices : (q.filters.zipIdx).Pairwise fun f g => f.2 ≠ g.2 := by
      rw [← List.pairwise_map (f := Prod.snd) (R := (· ≠ ·)), List.zipIdx_map_snd]
      exact List.nodup_range'
    refine hindices.imp fun {f g} hne key hf hg => ?_
    obtain ⟨e, he, rfl⟩ := List.mem_map.mp hf
    obtain ⟨e', he', hkey⟩ := List.mem_map.mp hg
    obtain ⟨p, hp, -⟩ := mem_partParams.mp he
    obtain ⟨r, hr, -⟩ := mem_partParams.mp he'
    exact hne (paramKey_inj.mp (hp.symm.trans (hkey.symm.trans hr))).1

/-- **The value of a key is that of the part of a filter with this key**, and there are no other
keys. -/
theorem find?_params (h : q.params separator = .ok entries) :
    Value.find? key entries = some v ↔
      ∃ index part f, q.filters[index]? = some f ∧ key = paramKey index part ∧
        f.part? separator part = some v := by
  rw [Value.find?_eq_some_iff (nodup_keys h)]
  obtain ⟨-, rfl⟩ := paramsFrom_ok_iff.mp h
  simp only [List.mem_flatMap, List.mem_zipIdx_iff_getElem?, mem_partParams]
  constructor
  · rintro ⟨⟨f, index⟩, hf, part, hkey, hpart⟩
    exact ⟨index, part, f, hf, hkey, hpart⟩
  · rintro ⟨index, part, f, hf, hkey, hpart⟩
    exact ⟨(f, index), hf, part, hkey, hpart⟩

/-- The value of the key of a part is that part, if the filter has it. -/
theorem find?_paramKey (h : q.params separator = .ok entries) {index : Nat} {f : QueryFilter}
    (hf : q.filters[index]? = some f) (part : Part) :
    Value.find? (paramKey index part) entries = f.part? separator part := by
  refine Option.ext fun v => (find?_params h).trans ?_
  constructor
  · rintro ⟨i, p, g, hg, hkey, hpart⟩
    obtain ⟨rfl, rfl⟩ := paramKey_inj.mp hkey
    rw [hf, Option.some.injEq] at hg
    rwa [hg]
  · exact fun hpart => ⟨index, part, f, hf, rfl, hpart⟩

/-- Every parameter is one of a filter of the query. -/
theorem key_of_mem_params (h : q.params separator = .ok entries) {e : Text × Value}
    (he : e ∈ entries) : ∃ index part, index < q.filters.length ∧ e.1 = paramKey index part := by
  have hfind : Value.find? e.1 entries = some e.2 :=
    (Value.find?_eq_some_iff (nodup_keys h)).mpr he
  obtain ⟨index, part, f, hf, hkey, -⟩ := (find?_params h).mp hfind
  exact ⟨index, part, (List.getElem?_eq_some_iff.mp hf).1, hkey⟩

/-- The indices in the parameters have no gap: they are those of the filters of the query. -/
theorem find?_index_iff (h : q.params separator = .ok entries) (index : Nat) :
    (∃ part v, Value.find? (paramKey index part) entries = some v) ↔
      index < q.filters.length := by
  constructor
  · rintro ⟨part, v, hfind⟩
    obtain ⟨i, p, f, hf, hkey, -⟩ := (find?_params h).mp hfind
    obtain ⟨rfl, -⟩ := paramKey_inj.mp hkey
    exact (List.getElem?_eq_some_iff.mp hf).1
  · intro hindex
    exact ⟨.field, _, find?_paramKey h (List.getElem?_eq_getElem hindex) .field⟩

/-! ## The projections of filters -/

/-- **The sort keys that a query states are those by which records are sorted.** -/
theorem sort_stated (c : Catalog) (filters : List Filter) :
    (ofQueryFilters ((c.bind filters).map Filter.stated)).sort =
      Evaluation.namedKeys c filters := by
  unfold ofQueryFilters Evaluation.namedKeys
  rw [List.filterMap_map]
  rfl

/-- A value with a text has one as a parameter. -/
theorem valueText_of_toText {t : Text} (h : v.toText = .ok t) (separator : Text) :
    ∃ t, valueText (.text separator) v = .ok t := by
  cases v with
  | list items =>
    obtain ⟨ts, hts, -⟩ := of_bind_ok h
    exact ⟨List.intercalate separator ts, by rw [valueText, Separator.join, hts]; rfl⟩
  | _ => exact ⟨t, h⟩

/-- **The query, the parameters and the sort of a list of filters agree.**  The query states the
filters that have a definition in their order, and as its sort keys those of them that have a
direction.  Records are sorted by exactly these keys.  The parameters hold the parts of each filter
of the query under its index, the direction only if it has one, and nothing else. -/
theorem projections_agree (c : Catalog) (separator : Text) (filters : List Filter)
    (hnamed : ∀ f ∈ c.bind filters, f.1.SortingNamed)
    (htexts : ∀ f ∈ c.bind filters, ∃ t, f.1.value.toText = .ok t) :
    ∃ q entries, ofFilters c filters = .ok q ∧
      paramsOfFilters c (.text separator) filters = .ok entries ∧
      q.filters = (c.bind filters).map Filter.stated ∧
      q.sort = q.filters.filterMap (fun f => f.direction.map fun d => ⟨f.field, d⟩) ∧
      (∀ today rows, Evaluation.arrange today c filters rows = Row.sort today q.sort rows) ∧
      (∀ index f, q.filters[index]? = some f →
        Value.find? (paramKey index .field) entries = some (.text f.field) ∧
        Value.find? (paramKey index .operator) entries = some f.operator.value ∧
        (∃ t, valueText (.text separator) f.value = .ok t ∧
          Value.find? (paramKey index .value) entries = some (.text t)) ∧
        Value.find? (paramKey index .sort) entries = f.direction.map fun d => .text d.word) ∧
      (entries.map Prod.fst).Nodup ∧
      ∀ e ∈ entries, ∃ index part, index < q.filters.length ∧ e.1 = paramKey index part := by
  have hquery := ofFilters_named hnamed
  have hvalues : ∀ f ∈ (c.bind filters).map Filter.stated,
      ∃ t, valueText (.text separator) f.value = .ok t := by
    intro f hf
    obtain ⟨bound, hbound, rfl⟩ := List.mem_map.mp hf
    obtain ⟨t, ht⟩ := htexts bound hbound
    exact valueText_of_toText ht separator
  have hparams : (ofQueryFilters ((c.bind filters).map Filter.stated)).params (.text separator) =
      .ok _ := paramsFrom_ok_iff.mpr ⟨hvalues, rfl⟩
  refine ⟨_, _, hquery, ?_, rfl, rfl, fun today rows => ?_, fun index f hf => ?_,
    nodup_keys hparams, fun e he => key_of_mem_params hparams he⟩
  · unfold paramsOfFilters
    rw [hquery]
    exact hparams
  · unfold Evaluation.arrange
    rw [Evaluation.sortKeys_bound hnamed, sort_stated]
    rfl
  · have hpart := find?_paramKey hparams hf
    obtain ⟨t, ht⟩ := hvalues f (List.mem_of_getElem? hf)
    refine ⟨hpart .field, hpart .operator, ⟨t, ht, ?_⟩, hpart .sort⟩
    rw [hpart, QueryFilter.part?, ht]
    rfl

/-- Two of three filters have a definition; the first one sorts and the last one is a list. -/
theorem projections_agree_employees :
    let filters : List Filter :=
      [⟨"a", "salary", .known .greaterThan, .int 5, some (.written "desc")⟩,
        ⟨"b", "height", .known .equals, .text "tall", some (.written "up")⟩,
        ⟨"c", "skills", .known .contains, .list [.text "Lean"], none⟩]
    ∃ q entries, ofFilters Employees.catalog filters = .ok q ∧
      paramsOfFilters Employees.catalog (.text ",") filters = .ok entries ∧
      q.filters = (Employees.catalog.bind filters).map Filter.stated ∧
      q.sort = q.filters.filterMap (fun f => f.direction.map fun d => ⟨f.field, d⟩) ∧
      (∀ today rows,
        Evaluation.arrange today Employees.catalog filters rows = Row.sort today q.sort rows) ∧
      (∀ index f, q.filters[index]? = some f →
        Value.find? (paramKey index .field) entries = some (.text f.field) ∧
        Value.find? (paramKey index .operator) entries = some f.operator.value ∧
        (∃ t, valueText (.text ",") f.value = .ok t ∧
          Value.find? (paramKey index .value) entries = some (.text t)) ∧
        Value.find? (paramKey index .sort) entries = f.direction.map fun d => .text d.word) ∧
      (entries.map Prod.fst).Nodup ∧
      ∀ e ∈ entries, ∃ index part, index < q.filters.length ∧ e.1 = paramKey index part := by
  intro filters
  have hbound : ∃ salary skills, Employees.catalog.bind filters =
      [(⟨"a", "salary", .known .greaterThan, .int 5, some (.written "desc")⟩, salary),
        (⟨"c", "skills", .known .contains, .list [.text "Lean"], none⟩, skills)] :=
    ⟨_, _, rfl⟩
  obtain ⟨salary, skills, hbound⟩ := hbound
  refine projections_agree Employees.catalog "," filters ?_ ?_
  · rw [hbound, List.forall_mem_cons, List.forall_mem_singleton]
    exact ⟨.inr ⟨.descending, rfl⟩, .inl rfl⟩
  · rw [hbound, List.forall_mem_cons, List.forall_mem_singleton]
    exact ⟨⟨_, rfl⟩, ⟨_, rfl⟩⟩

end Query

end Winnow

import Winnow.Proofs.FilterSet.Session
import Winnow.Proofs.Query.Projection

/-!
# Answers to queries

A query names fields and not definitions.  It can be answered all the same: what a filter does with
a field depends on the kind of the field only, and the catalog knows the kind from any definition
that reads the field, if those agree on it.  The evaluation of a set is the answer to its query, so
sets with one query select the same records and sort them alike.

* `Catalog.KindsByField` : definitions that share a field share a kind;
* `QueryFilter.satisfies`, `Query.select`, `Query.answer` : the answer to a query;
* `Query.answer_ok` : there is always one;
* `Query.run_eq_answer` : filters are evaluated by answering their query;
* `FilterSet.evaluate_eq_answer` : so is every set that is reached;
* `FilterSet.evaluate_of_query` : sets with one query have one result.
-/

namespace Winnow

open Outcome

/-- Definitions that share a field share a kind. -/
def Catalog.KindsByField (c : Catalog) : Prop :=
  ∀ d ∈ c.definitions, ∀ e ∈ c.definitions, d.field = e.field → d.kind = e.kind

instance (c : Catalog) : Decidable c.KindsByField :=
  inferInstanceAs (Decidable (∀ d ∈ c.definitions, ∀ e ∈ c.definitions, _ → _))

/-! ## Answers -/

namespace QueryFilter

/-- Whether a record satisfies a filter of a query on a field of some kind. -/
def accepts (today : Date) (kind : FieldKind) (f : QueryFilter) (r : Record) :
    Except Fault Bool := do
  f.operator.test today kind (← r.read f.field) f.value

/-- Whether a record satisfies a filter of a query, where the kind is that of the first definition
that reads the field.  It does not where the filter fails, or where no definition reads the
field. -/
def satisfies (today : Date) (c : Catalog) (r : Record) (f : QueryFilter) : Bool :=
  match c.byField? f.field with
  | some d =>
    match f.accepts today d.kind r with
    | .ok b => b
    | .error _ => false
  | none => false

/-- The field of a satisfied filter has been read. -/
theorem read_of_satisfies {today : Date} {c : Catalog} {r : Record} {f : QueryFilter}
    (h : f.satisfies today c r = true) : ∃ v, r.read f.field = .ok v := by
  unfold satisfies at h
  split at h
  · split at h
    · rename_i b haccepts
      obtain ⟨v, hv, -⟩ := of_bind_ok haccepts
      exact ⟨v, hv⟩
    · cases h
  · cases h

end QueryFilter

namespace Query

variable {c : Catalog} {filters : List Filter} {q : Query}

/-- The rows that satisfy every filter of a query. -/
def select (today : Date) (c : Catalog) (q : Query) (rows : List Row) : List Row :=
  rows.filter fun row => q.filters.all (QueryFilter.satisfies today c row.record)

/-- The answer to a query: the rows that satisfy its filters, sorted by its keys. -/
def answer (today : Date) (c : Catalog) (q : Query) (rows : List Row) :
    Except Fault (List Row) :=
  Row.sort today q.sort (q.select today c rows)

/-- **There is an answer to every query that states its filters once more as sort keys**: a row that
is selected has been read at the field of each filter, and so of each key. -/
theorem answer_ok (today : Date) (c : Catalog) (fs : List QueryFilter) (rows : List Row) :
    ∃ out, (ofQueryFilters fs).answer today c rows = .ok out := by
  have hreadable : ∀ row ∈ (ofQueryFilters fs).select today c rows,
      row.IsReadable (ofQueryFilters fs).sort := by
    intro row hrow key hkey
    have hsatisfies := List.all_eq_true.mp (List.mem_filter.mp hrow).2
    obtain ⟨f, hf, hdirection⟩ := List.mem_filterMap.mp hkey
    obtain ⟨d, -, rfl⟩ := Option.map_eq_some_iff.mp hdirection
    exact QueryFilter.read_of_satisfies (hsatisfies f hf)
  have hsorted : ∃ out, Row.sort today _ _ = .ok out ∧ _ := Row.sort_perm hreadable
  obtain ⟨out, hout, -⟩ := hsorted
  exact ⟨out, hout⟩

/-! ## Evaluation by the query -/

/-- A filter is satisfied by the records that satisfy it in a query. -/
theorem satisfies_stated (hkinds : c.KindsByField) {f : Filter × Definition}
    (hf : f.2 ∈ c.definitions) (today : Date) (r : Record) :
    (Filter.stated f).satisfies today c r = Evaluation.satisfies today r f := by
  -- The owner of the field may be another definition than that of the filter.
  obtain ⟨owner, hmem, howner, hfield⟩ := Catalog.byField?_of_mem hf
  have hkind : owner.kind = f.2.kind := hkinds owner hmem f.2 hf hfield
  unfold QueryFilter.satisfies Filter.stated
  dsimp only
  rw [howner]
  dsimp only
  rw [hkind]
  rfl

/-- **Filters are evaluated by answering their query.** -/
theorem run_eq_answer (hkinds : c.KindsByField) (hnamed : ∀ f ∈ c.bind filters, f.1.SortingNamed)
    (today : Date) (rows : List Row) :
    Evaluation.run today c filters rows =
      (ofQueryFilters ((c.bind filters).map Filter.stated)).answer today c rows := by
  have hselect : Evaluation.select today c filters rows =
      (ofQueryFilters ((c.bind filters).map Filter.stated)).select today c rows := by
    refine List.filter_congr fun row _ => ?_
    show _ = ((c.bind filters).map Filter.stated).all _
    rw [List.all_map, Bool.eq_iff_iff, List.all_eq_true, List.all_eq_true]
    refine forall₂_congr fun f hf => ?_
    rw [Function.comp_apply, satisfies_stated hkinds (Catalog.mem_of_mem_bind hf).2.2]
  unfold Evaluation.run Evaluation.arrange answer
  rw [Evaluation.sortKeys_bound hnamed, sort_stated, hselect]
  rfl

/-- A filter that a query states has a direction with a word of the vocabulary, or an empty text as
its direction. -/
theorem sortingNamed_of_project {f : Filter × Definition} {stated : QueryFilter}
    (h : project f = .ok stated) (hsorting : f.1.sorting ≠ some (.written [])) :
    f.1.SortingNamed := by
  obtain ⟨direction?, hdirection, -⟩ := of_bind_ok h
  unfold direction at hdirection
  split at hdirection
  · rename_i hnone
    exact .inl hnone
  · rename_i hempty
    exact absurd hempty hsorting
  · rename_i s _ hs
    obtain ⟨d, hd, -⟩ := of_bind_ok hdirection
    exact .inr ⟨d, by rw [hs, Option.map_some, Sorting.word_of_direction hd]⟩

end Query

/-! ## Sets with one query -/

namespace FilterSet

variable {c : Catalog} {s t : FilterSet} {q : Query}

/-- In a set that is reached and has a query, the directions have words of the vocabulary. -/
theorem Reachable.sortingNamed (hs : s.Reachable c) (hq : Query.ofFilters c s.filters = .ok q) :
    ∀ f ∈ c.bind s.filters, f.1.SortingNamed := by
  intro f hf
  obtain ⟨hmem, hdefinition, -⟩ := Catalog.mem_of_mem_bind hf
  obtain ⟨all, hall, -⟩ := of_bind_ok hq
  obtain ⟨stated, -, hstated⟩ := ok_of_mapM_ok hall hf
  have hsorting : f.1.sorting ≠ some (.written []) :=
    (hs.sorting_ne_empty f.1 hmem).resolve_left (by rw [hdefinition]; exact nofun)
  exact Query.sortingNamed_of_project hstated hsorting

/-- **The evaluation of a set that is reached is the answer to its query.** -/
theorem evaluate_eq_answer (hkinds : c.KindsByField) (hs : s.Reachable c)
    (hq : Query.ofFilters c s.filters = .ok q) (today : Date) (rows : List Row) :
    s.evaluate today rows = q.answer today c rows := by
  have hnamed := hs.sortingNamed hq
  rw [Query.ofFilters_named hnamed, Except.ok.injEq] at hq
  unfold evaluate
  rw [hs.catalog, Query.run_eq_answer hkinds hnamed, hq]

/-- **Sets with one query have one result**, whatever their ids, their definitions and their filters
without a definition are: they return the same records in the same order, which are the answer to
the query. -/
theorem evaluate_of_query (hkinds : c.KindsByField) (hs : s.Reachable c) (ht : t.Reachable c)
    (hsq : Query.ofFilters c s.filters = .ok q) (htq : Query.ofFilters c t.filters = .ok q)
    (today : Date) (rows : List Row) :
    ∃ out, s.evaluate today rows = .ok out ∧ t.evaluate today rows = .ok out ∧
      q.answer today c rows = .ok out := by
  obtain ⟨fs, -, hfs⟩ := of_bind_ok hsq
  cases hfs
  obtain ⟨out, hout⟩ := Query.answer_ok today c fs rows
  rw [evaluate_eq_answer hkinds hs hsq, evaluate_eq_answer hkinds ht htq]
  exact ⟨out, hout, hout, hout⟩

/-- The directory with a second definition that reads the salary. -/
def directoryWithPay : Catalog :=
  Employees.catalog.add ⟨"pay", "Pay", "Filter by employee pay", .number, "salary",
    Employees.numberOperators, .equals, none, by decide, by decide⟩

/-- A salary filter that was composed and changed, and a pay filter that was given behind one that
has no definition. -/
theorem evaluate_of_query_pay :
    let rules : Rules := ⟨default, Settings.bundled.limits⟩
    let composed := (ofFilters directoryWithPay ⟨[], 0⟩ [] []).after
      [(rules, .compose [] (.text "salary")),
        (rules, .update (.text "salary_000000000001") ⟨none, some (.int 5), some (.text "desc")⟩)]
    let given := ofFilters directoryWithPay ⟨[], 0⟩ []
      [⟨"h", "height", .other (.text "taller"), .list [.null], some (.written [])⟩,
        ⟨"p", "pay", .known .greaterThanOrEqual, .int 5, some (.written "desc")⟩]
    ∀ today rows, ∃ out, composed.evaluate today rows = .ok out ∧
      given.evaluate today rows = .ok out := by
  intro rules composed given today rows
  have hcomposed : composed.Reachable directoryWithPay :=
    (Reachable.start (.empty ⟨[], 0⟩ [] : Start directoryWithPay rules _)).after _
  have hgiven : given.Reachable directoryWithPay := by
    refine .given ⟨[], 0⟩ [] ?_
    rw [List.forall_mem_cons, List.forall_mem_singleton]
    exact ⟨.inl rfl, .inr nofun⟩
  obtain ⟨out, hcomposedOut, hgivenOut, -⟩ :=
    evaluate_of_query (by decide +kernel) hcomposed hgiven rfl rfl today rows
  exact ⟨out, hcomposedOut, hgivenOut⟩

end FilterSet

end Winnow

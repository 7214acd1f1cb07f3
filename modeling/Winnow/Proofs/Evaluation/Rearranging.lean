import Winnow.Proofs.Evaluation.Sorting

/-!
# The order of filters

A row has to satisfy every filter, so selection does not depend on the order of the filters.  The
sort does, but only on the order of those that have a direction.

* `Evaluation.select_perm` : filters select the same rows in whatever order;
* `Evaluation.select_append` : they can be applied one after the other;
* `Evaluation.namedKeys_filter` : the sort keys are those of the filters that have a direction;
* `Evaluation.run_ok_iff` : what evaluation gives, and when it fails;
* `Evaluation.run_rearranged` : what a change of the order of filters does.
-/

namespace Winnow

namespace Catalog

theorem bind_append (c : Catalog) (F G : List Filter) : c.bind (F ++ G) = c.bind F ++ c.bind G :=
  List.filterMap_append

theorem bind_perm (c : Catalog) {F G : List Filter} (h : F.Perm G) : (c.bind F).Perm (c.bind G) :=
  h.filterMap _

end Catalog

namespace Evaluation

variable {today : Date} {c : Catalog} {F G : List Filter} {rows : List Row}

/-! ## Selection -/

theorem select_perm (h : F.Perm G) (rows : List Row) :
    select today c F rows = select today c G rows := by
  rw [select_eq, select_eq]
  refine List.filter_congr fun row _ => decide_eq_decide.mpr ?_
  exact forall_congr' fun f => imp_congr_left (c.bind_perm h).mem_iff

theorem passes_append_iff {row : Row} :
    Passes today c (F ++ G) row ↔ Passes today c G row ∧ Passes today c F row := by
  unfold Passes
  rw [Catalog.bind_append, List.forall_mem_append]
  exact and_comm

theorem select_append (rows : List Row) :
    select today c (F ++ G) rows = select today c G (select today c F rows) := by
  rw [select_eq, select_eq, select_eq, List.filter_filter]
  refine List.filter_congr fun row _ => ?_
  rw [← Bool.decide_and]
  exact decide_eq_decide.mpr passes_append_iff

/-! ## Sort keys -/

/-- **Only the filters that have a direction have sort keys.** -/
theorem namedKeys_filter (c : Catalog) (F : List Filter) :
    namedKeys c (F.filter fun f => f.direction?.isSome) = namedKeys c F := by
  unfold namedKeys Catalog.bind
  rw [List.filterMap_filterMap, List.filterMap_filterMap, List.filterMap_filter]
  refine List.filterMap_congr fun f _ => ?_
  cases hdirection : f.direction? with
  | some d => rfl
  | none => cases c.find? f.definitionId <;> simp [hdirection]

/-- There are sort keys if every filter that has a definition has a direction by its word, or
none. -/
theorem sortKeys_ok_iff {keys : List SortKey} :
    sortKeys c F = .ok keys ↔
      (∀ f ∈ c.bind F, f.1.SortingNamed) ∧ keys = namedKeys c F := by
  constructor
  · intro h
    have hnamed : ∀ f ∈ c.bind F, f.1.SortingNamed := by
      intro f hf
      obtain ⟨found, hfound, -⟩ := Outcome.of_bind_ok h
      obtain ⟨key, -, hkey⟩ := Outcome.ok_of_mapM_ok hfound hf
      unfold sortKey? at hkey
      split at hkey
      · rename_i hnone
        exact .inl hnone
      · rename_i s hsome
        obtain ⟨d, hd, -⟩ := Outcome.of_bind_ok hkey
        exact .inr ⟨d, by rw [hsome, Option.map_some, Sorting.word_of_direction hd]⟩
    rw [sortKeys_bound hnamed, Except.ok.injEq] at h
    exact ⟨hnamed, h.symm⟩
  · rintro ⟨hnamed, rfl⟩
    exact sortKeys_bound hnamed

/-! ## Evaluation -/

/-- The rows that are selected have been read at every sort field. -/
theorem isReadable_of_mem_select {row : Row} (h : row ∈ select today c F rows) :
    row.IsReadable (namedKeys c F) := by
  intro key hkey
  obtain ⟨f, hf, -, hfield⟩ := field_of_mem_namedKeys hkey
  rw [select_eq, List.mem_filter, decide_eq_true_iff] at h
  rw [hfield]
  exact h.2.read hf

/-- **What evaluation gives**: the selected rows, sorted by the keys of the filters with a direction.
It fails only if a filter has a direction out of the vocabulary. -/
theorem run_ok_iff {sorted : List Row} :
    run today c F rows = .ok sorted ↔
      (∀ f ∈ c.bind F, f.1.SortingNamed) ∧
        sorted = (select today c F rows).mergeSort (Row.precedes today (namedKeys c F)) := by
  have hsort : Row.sort today (namedKeys c F) (select today c F rows) = _ :=
    Row.sort_eq_mergeSort fun row => isReadable_of_mem_select
  unfold run arrange
  constructor
  · intro h
    obtain ⟨keys, hkeys, h⟩ := Outcome.of_bind_ok h
    obtain ⟨hnamed, rfl⟩ := sortKeys_ok_iff.mp hkeys
    rw [hsort, Except.ok.injEq] at h
    exact ⟨hnamed, h.symm⟩
  · rintro ⟨hnamed, rfl⟩
    rw [sortKeys_bound hnamed]
    exact hsort

theorem run_ok_of_perm (h : F.Perm G)
    (hdirected : (F.filter fun f => f.direction?.isSome) = G.filter fun f => f.direction?.isSome)
    {sorted : List Row} (hrun : run today c F rows = .ok sorted) :
    run today c G rows = .ok sorted := by
  have hkeys : namedKeys c F = namedKeys c G := by
    rw [← namedKeys_filter, hdirected, namedKeys_filter]
  obtain ⟨hnamed, rfl⟩ := run_ok_iff.mp hrun
  refine run_ok_iff.mpr ⟨fun f hf => hnamed f ((c.bind_perm h).mem_iff.mpr hf), ?_⟩
  rw [hkeys, select_perm h]

end Evaluation

end Winnow

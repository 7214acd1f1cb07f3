import Winnow.Proofs.FilterSet.Editing
import Winnow.Store.Codec

/-!
# Decoded sets

* `FilterSet.storedFilters_spec` : the filters of a list of items have distinct ids, and each of
  them is the filter of an item;
* `FilterSet.storedFilters_of_resolved` : items that make filters with distinct ids make all of them;
* `FilterSet.deserialize_spec` : what is known of a set that was read from a blob.
-/

namespace Winnow.FilterSet

variable {c : Catalog} {rules : Rules} {tokens : Tokens}

/-! ## Distinct ids -/

theorem addDistinct_nodup {filters : List Filter} (f : Filter)
    (h : (filters.map Filter.id).Nodup) : ((addDistinct filters f).map Filter.id).Nodup := by
  unfold addDistinct
  split
  · exact h
  · rename_i hfree
    rw [List.map_append, List.map_cons, List.map_nil]
    refine List.Nodup.append h (List.nodup_singleton _) ?_
    rw [List.disjoint_singleton]
    intro hmem
    obtain ⟨g, hg, hid⟩ := List.mem_map.mp hmem
    exact hfree (List.any_eq_true.mpr ⟨g, hg, by simpa using hid⟩)

theorem mem_addDistinct {filters : List Filter} {f g : Filter} (h : g ∈ addDistinct filters f) :
    g ∈ filters ∨ g = f := by
  unfold addDistinct at h
  split at h
  · exact .inl h
  · simpa using h

theorem addDistinct_of_free {filters : List Filter} {f : Filter}
    (h : f.id ∉ filters.map Filter.id) : addDistinct filters f = filters ++ [f] := by
  unfold addDistinct
  split
  · rename_i htaken
    obtain ⟨g, hg, hid⟩ := List.any_eq_true.mp htaken
    exact absurd (List.mem_map.mpr ⟨g, hg, by simpa using hid⟩) h
  · rfl

/-- Of a list of filters the first with each id are added. -/
theorem foldl_addDistinct_spec (fs : List Filter) {filters : List Filter}
    (h : (filters.map Filter.id).Nodup) :
    ((fs.foldl addDistinct filters).map Filter.id).Nodup ∧
      ∀ g ∈ fs.foldl addDistinct filters, g ∈ filters ∨ g ∈ fs := by
  induction fs generalizing filters with
  | nil => exact ⟨h, fun g hg => .inl hg⟩
  | cons f fs ih =>
    obtain ⟨hdistinct, hmem⟩ := ih (addDistinct_nodup f h)
    refine ⟨hdistinct, fun g hg => ?_⟩
    rcases hmem g hg with hg | hg
    · rcases mem_addDistinct hg with hg | rfl
      · exact .inl hg
      · exact .inr List.mem_cons_self
    · exact .inr (List.mem_cons_of_mem f hg)

/-- Filters with distinct ids are all added. -/
theorem foldl_addDistinct_of_nodup {fs filters : List Filter}
    (h : ((filters ++ fs).map Filter.id).Nodup) :
    fs.foldl addDistinct filters = filters ++ fs := by
  induction fs generalizing filters with
  | nil => exact (List.append_nil filters).symm
  | cons f fs ih =>
    have hfree : f.id ∉ filters.map Filter.id := by
      rw [List.map_append, List.map_cons] at h
      exact fun hmem => (List.nodup_append.mp h).2.2 _ hmem _ List.mem_cons_self rfl
    rw [List.foldl_cons, addDistinct_of_free hfree, ih (by simpa using h), List.append_assoc]
    rfl

/-! ## Items -/

theorem resolve_of_storedFilter {item : Value} {f : Filter}
    (h : storedFilter c rules item = .ok (some f)) : Filter.resolve c rules item = .ok f := by
  unfold storedFilter at h
  split at h
  · split at h
    · rename_i hresolve
      cases h
      exact hresolve
    · split at h <;> cases h
  · cases h

theorem storedFilter_of_resolve {item : Value} {f : Filter}
    (h : Filter.resolve c rules item = .ok f) : storedFilter c rules item = .ok (some f) := by
  cases item with
  | object entries => simp only [storedFilter, h]
  | _ => cases h

theorem storedFilters_spec {items : List Value} {filters : List Filter}
    (h : storedFilters c rules items = .ok filters) :
    (filters.map Filter.id).Nodup ∧
      ∀ f ∈ filters, ∃ item ∈ items, Filter.resolve c rules item = .ok f := by
  unfold storedFilters at h
  obtain ⟨found, hfound, h⟩ := Outcome.of_bind_ok h
  cases h
  have hnone : (([] : List Filter).map Filter.id).Nodup := List.nodup_nil
  obtain ⟨hdistinct, hmem⟩ := foldl_addDistinct_spec (found.filterMap id) hnone
  refine ⟨hdistinct, fun f hf => ?_⟩
  rcases hmem f hf with hf | hf
  · cases hf
  · obtain ⟨o, ho, hid⟩ := List.mem_filterMap.mp hf
    obtain ⟨item, hitem, hstored⟩ := Outcome.mem_of_mapM_ok hfound ho
    rw [id_eq] at hid
    rw [hid] at hstored
    exact ⟨item, hitem, resolve_of_storedFilter hstored⟩

theorem storedFilters_of_resolved {items : List Value} {filters : List Filter}
    (hresolve : List.Forall₂ (fun item f => Filter.resolve c rules item = .ok f) items filters)
    (hdistinct : (filters.map Filter.id).Nodup) : storedFilters c rules items = .ok filters := by
  have hitems : items.mapM (storedFilter c rules) = .ok (filters.map some) := by
    rw [Outcome.mapM_ok_iff, List.forall₂_map_right_iff]
    exact hresolve.imp fun _ _ h => storedFilter_of_resolve h
  unfold storedFilters
  rw [hitems]
  show Except.ok (((filters.map some).filterMap id).foldl addDistinct []) = .ok filters
  rw [List.filterMap_map, Function.id_comp, List.filterMap_some]
  rw [foldl_addDistinct_of_nodup (by simpa using hdistinct), List.nil_append]

/-- A blob that holds a list has the set of its items. -/
theorem deserialize_eq {blob : Blob} {items : List Value} (h : storedItems blob = .ok items)
    (c : Catalog) (rules : Rules) (tokens : Tokens) :
    deserialize c rules tokens blob =
      (storedFilters c rules items).map (ofFilters c tokens rules.today.isoText) := by
  unfold deserialize
  rw [h]
  show (do return ofFilters c tokens rules.today.isoText (← storedFilters c rules items)) = _
  cases storedFilters c rules items <;> rfl

/-- **A set that was read from a blob** has the filters of some items, with distinct ids that count
as issued. -/
theorem deserialize_spec {blob : Blob} {s : FilterSet}
    (h : deserialize c rules tokens blob = .ok s) :
    s.catalog = c ∧ s.IdsDistinct ∧
      ∀ f ∈ s.filters, ∃ item, Filter.resolve c rules item = .ok f := by
  unfold deserialize at h
  obtain ⟨items, _, h⟩ := Outcome.of_bind_ok h
  obtain ⟨filters, hfilters, h⟩ := Outcome.of_bind_ok h
  cases h
  obtain ⟨hdistinct, hresolve⟩ := storedFilters_spec hfilters
  refine ⟨rfl, ofFilters_idsDistinct hdistinct, fun f hf => ?_⟩
  obtain ⟨item, _, hitem⟩ := hresolve f hf
  exact ⟨item, hitem⟩

end Winnow.FilterSet

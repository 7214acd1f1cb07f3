import Winnow.Proofs.Composer.Running
import Winnow.Proofs.FilterSet.Moving

/-!
# Reordering by a gesture

A filter that is dragged over another one is moved right before it, whatever a store and the events
before made of the set.  The one exception is a filter whose id is the empty text, which a store can
hold: over it a drop does nothing.

* `Composer.dragOver` : the gesture;
* `Composer.dragOver_moves`, `Composer.dragOver_empty` : what it does in each case;
* `Composer.onStore_dragOver_iff` : it moves the filter unless the other one's id is empty.
-/

namespace Winnow.Composer

/-- A filter is dragged over another one, each named by its id. -/
def dragOver (c : Composer) (id target : Text) : Composer :=
  c.after [.start (.text SourceKind.active.word) (.text id),
    .drop (.text DropTarget.filter.word) (.text target)]

variable {c : Composer} {id target : Text}

theorem dragOver_eq (c : Composer) (id target : Text) :
    c.dragOver id target =
      ((c.dragStart (.text SourceKind.active.word) (.text id)).2.drop
        (.ofText? (some DropTarget.filter.word)) (.ofText? (some target))).2 := rfl

theorem dragStart_active (c : Composer) (id : Text) :
    (c.dragStart (.text SourceKind.active.word) (.text id)).2 =
      { c with gesture := .dragging (some ⟨.active, .text id⟩) } := rfl

theorem dragOver_gesture (c : Composer) (id target : Text) :
    (c.dragOver id target).gesture = .idle := by
  rw [dragOver_eq]
  exact drop_gesture _ _ _

/-- A filter that is dragged over one with an id is moved there. -/
theorem dragOver_moves (htarget : target ≠ []) :
    (c.dragOver id target).set = (c.set.reorder (.text id) (.text target)).2 := by
  rw [dragOver_eq, dragStart_active]
  exact (drop_moves rfl ⟨rfl, rfl, rfl, htarget⟩).2

/-- Over a filter whose id is empty nothing happens. -/
theorem dragOver_empty : (c.dragOver id []).set = c.set := by
  rw [dragOver_eq, dragStart_active]
  refine (drop_otherwise rfl ?_ ?_).2
  · rintro definition ⟨hsource, -⟩
    cases hsource
  · rintro moved target ⟨-, -, hid, hne⟩
    cases hid
    exact hne rfl

/-- **A filter that is dragged over another one stands right before it afterwards**, and all else is
in its order, unless the id of the other one is empty; over that one nothing moves. -/
theorem onStore_dragOver_iff {catalog : Catalog} {rules : Rules} {tokens : Tokens}
    {store : MemoryStore} (hopen : onStore catalog rules tokens store = .ok c)
    (events : List (Surroundings × ComposerEvent)) {s t : Filter}
    (hs : s ∈ (c.run events).set.filters) (ht : t ∈ (c.run events).set.filters) (hne : s ≠ t) :
    ((c.run events).dragOver s.id t.id).gesture = .idle ∧
    (s.MovedBefore t (c.run events).set.filters
        ((c.run events).dragOver s.id t.id).set.filters ↔
      t.id ≠ [] ∨ s.MovedBefore t (c.run events).set.filters (c.run events).set.filters) := by
  have hids := run_idsDistinct (FilterSet.start_idsDistinct (onStore_start hopen)) events
  have hidne : s.id ≠ t.id := fun hid => hne (List.inj_on_of_nodup_map hids.distinct hs ht hid)
  refine ⟨dragOver_gesture _ _ _, ?_⟩
  by_cases htarget : t.id = []
  · rw [htarget, dragOver_empty]
    simp
  · have hmoved := FilterSet.moveBefore_movedBefore hids.distinct hs ht hidne
    rw [dragOver_moves htarget]
    exact iff_of_true hmoved (.inl htarget)

/-! ## A store with an empty id -/

/-- A store that holds three filters, the first of which has an empty id. -/
def threeEntries : MemoryStore :=
  ⟨some (.text "[\x7b\"id\": \"\", \"definitionId\": \"city\"\x7d,
    \x7b\"id\": \"a\", \"definitionId\": \"city\"\x7d,
    \x7b\"id\": \"b\", \"definitionId\": \"city\"\x7d]"), none⟩

theorem opened_threeEntries : ∃ c f g k,
    onStore Employees.catalog ⟨default, Settings.bundled.limits⟩ ⟨[], 0⟩ threeEntries = .ok c ∧
    c.set.filters = [f, g, k] ∧ f.id = [] ∧ g.id = "a" ∧ k.id = "b" := by
  have hids : (onStore Employees.catalog ⟨default, Settings.bundled.limits⟩ ⟨[], 0⟩
      threeEntries).toOption.map (fun c => c.set.filters.map Filter.id) =
        some [[], "a", "b"] := by decide +kernel
  cases hopen : onStore Employees.catalog ⟨default, Settings.bundled.limits⟩ ⟨[], 0⟩
    threeEntries with
  | error fault => simp [hopen, Except.toOption] at hids
  | ok c =>
    simp only [hopen, Except.toOption, Option.map_some, Option.some.injEq, List.map_eq_cons_iff,
      List.map_eq_nil_iff] at hids
    obtain ⟨f, _, hfilters, hf, g, _, rfl, hg, k, _, rfl, hk, rfl⟩ := hids
    exact ⟨c, f, g, k, rfl, hfilters, hf, hg, hk⟩

/-- The three filters differ, and none was moved before the first. -/
theorem not_movedBefore_first {f g k : Filter} (hf : f.id = []) (hg : g.id = "a")
    (hk : k.id = "b") : f ≠ k ∧ g ≠ k ∧ ¬ k.MovedBefore f [f, g, k] [f, g, k] := by
  have hfg : f ≠ g := by
    rintro rfl
    exact absurd (hf.symm.trans hg) (by decide)
  have hfk : f ≠ k := by
    rintro rfl
    exact absurd (hf.symm.trans hk) (by decide)
  have hgk : g ≠ k := by
    rintro rfl
    exact absurd (hg.symm.trans hk) (by decide)
  exact ⟨hfk, hgk, Filter.not_movedBefore_head hfk.symm (by simp [hfg, hfk])⟩

/-- The last filter moves before the one in the middle, but not before the first, whose id is
empty. -/
theorem onStore_dragOver_iff_threeEntries : ∃ c f g k,
    onStore Employees.catalog ⟨default, Settings.bundled.limits⟩ ⟨[], 0⟩ threeEntries = .ok c ∧
    c.set.filters = [f, g, k] ∧
    k.MovedBefore g [f, g, k] (c.dragOver k.id g.id).set.filters ∧
    ¬ k.MovedBefore f [f, g, k] (c.dragOver k.id f.id).set.filters := by
  obtain ⟨c, f, g, k, hopen, hfilters, hf, hg, hk⟩ := opened_threeEntries
  obtain ⟨hfk, hgk, hfirst⟩ := not_movedBefore_first hf hg hk
  have hmoves {s t : Filter} (hs : s ∈ [f, g, k]) (ht : t ∈ [f, g, k]) (hne : s ≠ t) :=
    (onStore_dragOver_iff hopen [] (hfilters ▸ hs) (hfilters ▸ ht) hne).2
  simp only [run_nil, hfilters] at hmoves
  refine ⟨c, f, g, k, hopen, hfilters, ?_, ?_⟩
  · exact (hmoves (by simp) (by simp) hgk.symm).mpr (.inl (by simp [hg]; decide))
  · rw [hmoves (by simp) (by simp) hfk.symm]
    simp [hf, hfirst]

/-- **A filter that is dragged over one with an empty id does not move.** -/
theorem not_onStore_dragOver :
    ¬ ∀ (c : Composer) (s t : Filter),
      onStore Employees.catalog ⟨default, Settings.bundled.limits⟩ ⟨[], 0⟩ threeEntries = .ok c →
      s ∈ c.set.filters → t ∈ c.set.filters → s ≠ t →
        s.MovedBefore t c.set.filters (c.dragOver s.id t.id).set.filters := by
  intro hmoves
  obtain ⟨c, f, g, k, hopen, hfilters, hf, hg, hk⟩ := opened_threeEntries
  obtain ⟨hfk, -, hfirst⟩ := not_movedBefore_first hf hg hk
  have hmoved := hmoves c k f hopen (by simp [hfilters]) (by simp [hfilters]) hfk.symm
  rw [hf, dragOver_empty, hfilters] at hmoved
  exact hfirst hmoved

end Winnow.Composer

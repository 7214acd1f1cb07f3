import Winnow.Composer
import Winnow.Proofs.Query.Projection

/-!
# Filters without a definition

A set may hold filters whose definition is not in its catalog.  Each view of a composer leaves them
out before it reads anything else of them: no operator, no value and no direction of theirs can make
it fail, move an index or add a sort key.

* `Catalog.Padded` : a list of filters into which filters without a definition were put;
* `Catalog.Padded.bind_eq`, `Catalog.Padded.filterM_eq` : it has the same filters with a definition,
  and a test that passes over the others keeps the same ones;
* `Composer.views_padded` : so the views show the same.
-/

namespace Winnow

open Outcome

/-! ## Padded lists -/

namespace Catalog

/-- A list of filters, and the same list with filters put in that have no definition, at any
places and any number of them. -/
inductive Padded (c : Catalog) : List Filter → List Filter → Prop
  | nil : Padded c [] []
  | kept (f : Filter) {filters padded : List Filter} (h : Padded c filters padded) :
    Padded c (f :: filters) (f :: padded)
  | put {f : Filter} (hf : c.find? f.definitionId = none) {filters padded : List Filter}
    (h : Padded c filters padded) : Padded c filters (f :: padded)

namespace Padded

variable {c : Catalog} {filters padded : List Filter}

theorem refl (c : Catalog) (filters : List Filter) : c.Padded filters filters := by
  induction filters with
  | nil => exact .nil
  | cons f filters ih => exact ih.kept f

/-- One more filter without a definition may be put in anywhere. -/
theorem insert {f : Filter} (hf : c.find? f.definitionId = none) {before after : List Filter}
    (h : c.Padded filters (before ++ after)) : c.Padded filters (before ++ f :: after) := by
  induction before generalizing filters with
  | nil => exact h.put hf
  | cons g before ih =>
    cases h with
    | kept _ h => exact (ih h).kept g
    | put hg h => exact (ih h).put hg

/-- **The filters that have a definition are the same**, in the same order. -/
theorem bind_eq (h : c.Padded filters padded) : c.bind padded = c.bind filters := by
  unfold bind
  induction h with
  | nil => rfl
  | kept f h ih => rw [List.filterMap_cons, List.filterMap_cons, ih]
  | put hf h ih => rw [List.filterMap_cons, hf, Option.map_none, ih]

/-- A test that takes no filter without a definition keeps the same filters, and fails alike. -/
theorem filterM_eq {test : Filter → Except Fault Bool}
    (htest : ∀ f, c.find? f.definitionId = none → test f = .ok false)
    (h : c.Padded filters padded) : padded.filterM test = filters.filterM test := by
  -- The loop behind the filter carries what it kept so far, which both lists have in common.
  have haux : ∀ kept, padded.filterAuxM test kept = filters.filterAuxM test kept := by
    induction h with
    | nil => exact fun _ => rfl
    | kept f h ih =>
      intro kept
      show (test f >>= fun _ => _) = (test f >>= fun _ => _)
      exact congrArg (test f >>= ·) (funext fun b => ih _)
    | put hf h ih =>
      intro kept
      show (test _ >>= fun _ => _) = _
      rw [htest _ hf]
      exact ih kept
  unfold List.filterM
  rw [haux]

end Padded

end Catalog

/-! ## Views -/

/-- A query has as many filters as have a definition. -/
theorem Query.length_filters {c : Catalog} {filters : List Filter} {q : Query}
    (h : ofFilters c filters = .ok q) : q.filters.length = (c.bind filters).length := by
  obtain ⟨stated, hstated, h⟩ := of_bind_ok h
  cases h
  exact (mapM_ok_iff.mp hstated).length_eq.symm

namespace Composer

/-- A composer with other filters in its set. -/
def holding (c : Composer) (filters : List Filter) : Composer :=
  { c with set := { c.set with filters := filters } }

/-- **Filters without a definition change nothing that a composer shows**, wherever they stand and
whatever their operators, values and directions are: the rows it selects, the query, the parameters,
whose indices have no gap, the payload, which holds that query at whatever time it is made, and the
incomplete filters.  Where a view fails, it fails alike. -/
theorem views_padded (c : Composer) {padded : List Filter}
    (h : c.set.catalog.Padded c.set.filters padded) :
    (∀ today rows, (c.holding padded).select today rows = c.select today rows) ∧
    (c.holding padded).query = c.query ∧
    (∀ separator, (c.holding padded).params separator = c.params separator) ∧
    (∀ separator entries, (c.holding padded).params separator = .ok entries → ∀ index,
      (∃ part v, Value.find? (Query.paramKey index part) entries = some v) ↔
        index < (c.set.catalog.bind c.set.filters).length) ∧
    (∀ now, (c.holding padded).payload now = c.payload now) ∧
    (∀ now v, (c.holding padded).payload now = .ok v → ∃ q time, c.query = .ok q ∧
      v = .object [("query", q.wire), ("timestamp", .text time)]) ∧
    ∀ today, (c.holding padded).incomplete today = c.incomplete today := by
  have hquery : Query.ofFilters c.set.catalog padded =
      Query.ofFilters c.set.catalog c.set.filters := by
    unfold Query.ofFilters
    rw [h.bind_eq]
  have hparams : ∀ separator, (c.holding padded).params separator = c.params separator := by
    intro separator
    unfold params Query.paramsOfFilters
    exact congrArg (· >>= Query.params separator) hquery
  have hpayload : ∀ now, (c.holding padded).payload now = c.payload now := by
    intro now
    unfold payload Query.payload
    exact congrArg (· >>= _) hquery
  refine ⟨fun today rows => ?_, hquery, hparams, fun separator entries hentries index => ?_,
    hpayload, fun now v hv => ?_, fun today => ?_⟩
  · show Evaluation.run today c.set.catalog padded rows = Evaluation.run today _ c.set.filters rows
    unfold Evaluation.run Evaluation.arrange Evaluation.select Evaluation.sortKeys
    rw [h.bind_eq]
  · rw [hparams] at hentries
    obtain ⟨q, hq, hentries⟩ := of_bind_ok hentries
    rw [Query.find?_index_iff hentries, Query.length_filters hq]
  · rw [hpayload] at hv
    obtain ⟨q, hq, hv⟩ := of_bind_ok hv
    obtain ⟨time, -, hv⟩ := of_bind_ok hv
    cases hv
    exact ⟨q, time, hq, rfl⟩
  · have htest : ∀ f, c.set.catalog.find? f.definitionId = none →
        c.isIncomplete today f = .ok false := by
      intro f hf
      unfold isIncomplete
      rw [hf]
    exact h.filterM_eq htest

/-- A filter that the directory does not know, with an operator and a direction that do not exist,
stands before and behind one that is known. -/
theorem views_padded_height :
    let height : Filter :=
      ⟨"h", "height", .other (.text "taller"), .list [.null], some (.written "up")⟩
    let salary : Filter := ⟨"s", "salary", .known .greaterThan, .int 5, some (.by .descending)⟩
    let c : Composer := ⟨.ofFilters Employees.catalog ⟨[], 0⟩ [] [salary], .idle, .empty⟩
    (∀ today rows, (c.holding [height, salary, height]).select today rows = c.select today rows) ∧
    (c.holding [height, salary, height]).query = c.query ∧
    (∀ separator, (c.holding [height, salary, height]).params separator = c.params separator) ∧
    ∀ today, (c.holding [height, salary, height]).incomplete today = c.incomplete today := by
  intro height salary c
  have hheight : Employees.catalog.find? height.definitionId = none := rfl
  have hbefore : Employees.catalog.Padded [salary] ([height, salary] ++ []) :=
    (Catalog.Padded.refl _ _).put hheight
  have hpadded : Employees.catalog.Padded [salary] ([height, salary] ++ height :: []) :=
    hbefore.insert hheight
  obtain ⟨hselect, hquery, hparams, -, -, -, hincomplete⟩ := views_padded c hpadded
  exact ⟨hselect, hquery, hparams, hincomplete⟩

end Composer

end Winnow

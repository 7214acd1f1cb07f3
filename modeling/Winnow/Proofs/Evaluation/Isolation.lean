import Mathlib.Algebra.Group.Int.Defs
import Winnow.Evaluation
import Winnow.Proofs.FilterSet.Invariant
import Winnow.Proofs.Value.Faults

/-!
# Failures of filters are isolated

Evaluation always returns.  A filter that fails on a record takes that record away and does nothing
else.  The sort reads fields outside of any filter, but only of records that are selected, and each
field that it reads belongs to a filter that has read it before.

* `Evaluation.Passes` : every filter accepts a row, without failing;
* `Row.sort_perm` : rows whose sort fields can be read are sorted;
* `FilterSet.evaluate_perm` : evaluation gives the rows that pass, in some order;
* `FilterSet.run_evaluate_isolated` : so it does for every set that is edited.
-/

namespace Winnow

open Outcome

/-! ## Sorting -/

/-- Records whose values for the first key can be read are compared by these, then by the other
keys. -/
theorem Record.order_cons {today : Date} {key : SortKey} {keys : List SortKey} {r s : Record}
    {v w : Value} (hv : r.read key.field = .ok v) (hw : s.read key.field = .ok w) :
    Record.order today (key :: keys) r s =
      match key.direction.order today v w with
      | .eq => Record.order today keys r s
      | o => .ok o := by
  rw [Record.order, hv, hw]
  rfl

namespace Row

variable {today : Date} {keys : List SortKey} {rows : List Row}

/-- The fields that the keys name can be read. -/
def IsReadable (keys : List SortKey) (row : Row) : Prop :=
  ∀ key ∈ keys, ∃ v, row.record.read key.field = .ok v

theorem order_ok {r s : Row} (hr : r.IsReadable keys) (hs : s.IsReadable keys) :
    ∃ o, r.record.order today keys s.record = .ok o := by
  induction keys with
  | nil => exact ⟨.eq, rfl⟩
  | cons key keys ih =>
    obtain ⟨v, hv⟩ := hr key List.mem_cons_self
    obtain ⟨w, hw⟩ := hs key List.mem_cons_self
    obtain ⟨o, ho⟩ := ih (fun k hk => hr k (List.mem_cons_of_mem key hk))
      fun k hk => hs k (List.mem_cons_of_mem key hk)
    rw [Record.order_cons hv hw]
    split
    · exact ⟨o, ho⟩
    · exact ⟨_, rfl⟩

theorem incomparable?_eq_none (hrows : ∀ r ∈ rows, r.IsReadable keys) :
    incomparable? today keys rows = none := by
  induction rows with
  | nil => rfl
  | cons r rows ih =>
    rw [incomparable?, List.findSome?_eq_none_iff.mpr]
    · exact ih fun s hs => hrows s (List.mem_cons_of_mem r hs)
    · intro s hs
      obtain ⟨o, ho⟩ := order_ok (hrows r List.mem_cons_self) (hrows s (List.mem_cons_of_mem r hs))
      rw [ho]

/-- Rows whose sort fields can be read are sorted, and none is lost or added. -/
theorem sort_perm (hrows : ∀ r ∈ rows, r.IsReadable keys) :
    ∃ out, sort today keys rows = .ok out ∧ out.Perm rows := by
  unfold sort
  split
  · exact ⟨rows, rfl, List.Perm.refl rows⟩
  · rw [incomparable?_eq_none hrows]
    exact ⟨_, rfl, List.mergeSort_perm rows _⟩

end Row

/-! ## Selection -/

namespace Evaluation

variable {today : Date} {c : Catalog} {filters : List Filter}

/-- Every filter that has a definition accepts a row, without failing. -/
def Passes (today : Date) (c : Catalog) (filters : List Filter) (row : Row) : Prop :=
  ∀ f ∈ c.bind filters, f.1.accepts today f.2 row.record = .ok true

instance (row : Row) : Decidable (Passes today c filters row) :=
  inferInstanceAs (Decidable (∀ f ∈ c.bind filters, _))

theorem satisfies_iff {r : Record} {f : Filter × Definition} :
    satisfies today r f = true ↔ f.1.accepts today f.2 r = .ok true := by
  unfold satisfies
  split
  · rename_i b h
    rw [h, Except.ok.injEq]
  · rename_i fault h
    rw [h]
    exact ⟨nofun, nofun⟩

theorem select_eq (rows : List Row) :
    select today c filters rows = rows.filter fun row => Passes today c filters row := by
  refine List.filter_congr fun row _ => ?_
  rw [Bool.eq_iff_iff, List.all_eq_true, decide_eq_true_iff]
  exact forall₂_congr fun f _ => satisfies_iff

/-- A row that passes has been read at the field of every filter. -/
theorem Passes.read {row : Row} (h : Passes today c filters row) {f : Filter × Definition}
    (hf : f ∈ c.bind filters) : ∃ v, row.record.read f.2.field = .ok v := by
  obtain ⟨v, hv, _⟩ := of_bind_ok (h f hf)
  exact ⟨v, hv⟩

/-! ## Sort keys -/

theorem sortKey?_ok {f : Filter × Definition} (h : f.1.SortingKnown) :
    ∃ key, sortKey? f = .ok key ∧ ∀ k ∈ key, k.field = f.2.field := by
  unfold sortKey?
  rcases h with hnone | ⟨direction, hsome⟩
  · rw [hnone]
    exact ⟨none, rfl, nofun⟩
  · rw [hsome]
    refine ⟨some ⟨f.2.field, direction⟩, rfl, fun k hk => ?_⟩
    cases hk
    rfl

/-- Filters with known directions have sort keys, each for the field of one of them. -/
theorem sortKeys_ok (h : ∀ f ∈ filters, f.SortingKnown) :
    ∃ keys, sortKeys c filters = .ok keys ∧
      ∀ key ∈ keys, ∃ f ∈ c.bind filters, key.field = f.2.field := by
  have hbound : ∀ f ∈ c.bind filters, f.1.SortingKnown :=
    fun f hf => h f.1 (Catalog.mem_of_mem_bind hf).1
  unfold sortKeys
  cases hkeys : (c.bind filters).mapM sortKey? with
  | error fault =>
    obtain ⟨f, hf, hfail⟩ := mapM_error hkeys
    obtain ⟨key, hkey, _⟩ := sortKey?_ok (hbound f hf)
    rw [hkey] at hfail
    cases hfail
  | ok found =>
    refine ⟨found.filterMap id, rfl, fun key hkey => ?_⟩
    obtain ⟨o, ho, hid⟩ := List.mem_filterMap.mp hkey
    obtain ⟨f, hf, hfound⟩ := mem_of_mapM_ok hkeys ho
    obtain ⟨o', ho', hfield⟩ := sortKey?_ok (hbound f hf)
    rw [hfound, Except.ok.injEq] at ho'
    subst ho'
    exact ⟨f, hf, hfield key hid⟩

end Evaluation

/-! ## Evaluation -/

namespace FilterSet

open Evaluation

variable {s : FilterSet} {today : Date}

/-- **Evaluation returns the rows that pass**, in some order, for every set whose directions are
known. -/
theorem evaluate_perm (h : ∀ f ∈ s.filters, f.SortingKnown) (rows : List Row) :
    ∃ out, s.evaluate today rows = .ok out ∧
      out.Perm (rows.filter fun row => Passes today s.catalog s.filters row) := by
  obtain ⟨keys, hkeys, hfields⟩ := sortKeys_ok (c := s.catalog) h
  have hreadable : ∀ row ∈ rows.filter fun row => Passes today s.catalog s.filters row,
      row.IsReadable keys := by
    intro row hrow key hkey
    obtain ⟨f, hf, hfield⟩ := hfields key hkey
    have hpasses : Passes today s.catalog s.filters row := by
      simpa using (List.mem_filter.mp hrow).2
    rw [hfield]
    exact hpasses.read hf
  have hsorted : ∃ out, Row.sort today keys _ = .ok out ∧ _ := Row.sort_perm hreadable
  obtain ⟨out, hsort, hperm⟩ := hsorted
  refine ⟨out, ?_, hperm⟩
  unfold evaluate Evaluation.run arrange
  rw [hkeys, select_eq]
  exact hsort

/-- A row on which a filter fails can be left out. -/
theorem evaluate_of_failing {row : Row} {f : Filter × Definition} {fault : Fault}
    (hf : f ∈ s.catalog.bind s.filters) (hfail : f.1.accepts today f.2 row.record = .error fault)
    (before after : List Row) :
    s.evaluate today (before ++ row :: after) = s.evaluate today (before ++ after) := by
  have hrow : ¬ Passes today s.catalog s.filters row := by
    intro hpasses
    have hok := hpasses f hf
    rw [hfail] at hok
    cases hok
  unfold evaluate Evaluation.run
  rw [select_eq, select_eq, List.filter_append, List.filter_append,
    List.filter_cons_of_neg (by simpa using hrow)]

end FilterSet

end Winnow

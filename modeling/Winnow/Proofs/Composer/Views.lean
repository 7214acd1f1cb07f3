import Winnow.Proofs.Calendar.DayNumber
import Winnow.Proofs.Composer.Running
import Winnow.Proofs.Evaluation.Isolation
import Winnow.Proofs.Filter.Completeness
import Winnow.Proofs.Query.Edited
import Winnow.Proofs.Query.Projection

/-!
# The views of a composer

A composer shows its set as a query, as flat parameters, as a payload, as the rows that satisfy it
and as the filters that lack a usable value.  Whatever is stored and whatever events happen, on
whatever days, the first four never fail.  The last one coerces the values without a guard, so it
fails exactly where a filter for numbers holds an integer beyond the binary64 numbers.

* `FilterSet.Presentable` : every filter of a set can be shown;
* `FilterSet.start_presentable`, `FilterSet.edited_presentable`, `Composer.run_presentable` : so it
  is at the start, after every edit and after every run;
* `Composer.query_eq`, `Composer.params_ok`, `Composer.payload_ok`, `Composer.select_ok` : the views
  that never fail;
* `Composer.incomplete_ok_iff` : when the last one does;
* `Composer.onStore_views` : all of them after any run.
-/

namespace Winnow

open Outcome

/-! ## Values that events bring -/

/-- No value of an event has an integer of too many digits. -/
def ComposerEvent.HasShortIntegers : ComposerEvent → Prop
  | .update _ changes => ∀ e ∈ changes, e.2.HasShortIntegers
  | .drag _ | .remove _ | .clear | .apply | .reset => True

/-- The value of an edit has no integer of too many digits. -/
def Edit.HasShortIntegers : Edit → Prop
  | .update _ p => ∀ v, p.value = some v → v.HasShortIntegers
  | .compose _ _ | .remove _ | .reorder _ _ | .clear => True

theorem Patch.add_value {p q : Patch} {name : Text} {v : Value} (h : p.add name v = .ok q) :
    q.value = p.value ∨ q.value = some v := by
  unfold add at h
  split at h
  · cases h
    exact .inl rfl
  · split at h
    · cases h
      exact .inr rfl
    · split at h
      · cases h
        exact .inl rfl
      · cases h

/-- The value of a patch is one of the changes. -/
theorem Patch.value_of_ofEntries {P : Value → Prop} {changes : Value.Entries} {p : Patch}
    (hchanges : ∀ e ∈ changes, P e.2) (h : ofEntries changes = .ok p) :
    ∀ v, p.value = some v → P v := by
  have hempty : ∀ v, empty.value = some v → P v := nofun
  refine of_foldlM_ok (P := fun p => ∀ v, p.value = some v → P v) ?_ hempty h
  intro e he old new hold hnew v hv
  rcases add_value hnew with hvalue | hvalue
  · exact hold v (hvalue ▸ hv)
  · rw [hvalue] at hv
    cases hv
    exact hchanges e he

namespace FilterSet

variable {c : Catalog} {rules : Rules} {s : FilterSet}

/-! ## Sets that can be shown -/

/-- Every filter of a set has a definition in the catalog and can be shown. -/
structure Presentable (c : Catalog) (s : FilterSet) : Prop where
  catalog : s.catalog = c
  bound : ∀ f ∈ s.filters, ∃ d, c.find? f.definitionId = some d ∧ f.Presentable d

theorem start_presentable (hstart : Start c rules s) : s.Presentable c := by
  refine ⟨start_catalog hstart, ?_⟩
  cases hstart with
  | empty tokens today => exact nofun
  | stored h =>
    obtain ⟨items, hitems, h⟩ := of_bind_ok h
    obtain ⟨filters, hfilters, h⟩ := of_bind_ok h
    cases h
    intro f hf
    obtain ⟨item, hitem, hresolve⟩ := (storedFilters_spec hfilters).2 f hf
    exact Filter.resolve_presentable (storedItems_hasShortIntegers hitems item hitem) hresolve

/-- **Every edit leaves a set that can be shown**, if it brings no integer of too many digits. -/
theorem edited_presentable {e : Edit} (hdated : e.IsDated) (hshort : e.HasShortIntegers)
    (hs : s.Presentable c) : (s.edited rules e).Presentable c := by
  refine ⟨(edited_catalog rules s e).trans hs.catalog, fun f hf => ?_⟩
  rcases mem_edited hf with hf | ⟨clock, definitionId, d, rfl, hdefinition, hnew⟩ |
    ⟨id, p, old, rfl, hold, hpatch⟩
  · exact hs.bound f hf
  · obtain ⟨day, rfl⟩ := hdated
    rw [hs.catalog] at hdefinition
    rw [hnew]
    exact ⟨d, hdefinition, Filter.new_presentable d f.id day⟩
  · obtain ⟨d, hdefinition, hkept⟩ := hs.bound old hold
    rw [hs.catalog, hdefinition] at hpatch
    have hid : f.definitionId = old.definitionId := Patch.apply_definitionId hpatch
    exact ⟨d, hid ▸ hdefinition, Filter.patch_presentable hshort hkept hpatch⟩

theorem Presentable.sortingKnown (hs : s.Presentable c) : ∀ f ∈ s.filters, f.SortingKnown := by
  intro f hf
  obtain ⟨d, -, hpresentable⟩ := hs.bound f hf
  exact hpresentable.sorting

theorem Presentable.of_mem_bind (hs : s.Presentable c) {f : Filter × Definition}
    (hf : f ∈ s.catalog.bind s.filters) : f.1.Presentable f.2 := by
  obtain ⟨hmem, hdefinition, -⟩ := Catalog.mem_of_mem_bind hf
  obtain ⟨d, hd, hpresentable⟩ := hs.bound f.1 hmem
  rw [hs.catalog, hd] at hdefinition
  cases hdefinition
  exact hpresentable

end FilterSet

/-! ## Runs -/

namespace Composer

variable {c : Composer} {catalog : Catalog} {rules : Rules} {tokens : Tokens} {store : MemoryStore}

/-- An event without integers of too many digits asks for an edit without them. -/
theorem edit?_hasShortIntegers {e : ComposerEvent} {edit : Edit} (he : e.HasShortIntegers)
    (h : c.edit? e = some edit) : edit.HasShortIntegers := by
  rcases edit?_cases h with ⟨_, rfl⟩ | ⟨_, _, rfl⟩ | ⟨_, _, _, rfl, hpatch, rfl⟩ | ⟨_, rfl⟩ | rfl
  case inr.inr.inl => exact Patch.value_of_ofEntries he hpatch
  all_goals trivial

/-- **Every event leaves a set that can be shown**, if it brings no integer of too many digits. -/
theorem perform_presentable (around : Surroundings) {e : ComposerEvent} (he : e.HasShortIntegers)
    (hc : c.set.Presentable catalog) : (c.perform around e).set.Presentable catalog := by
  have hday : (c.onDay around.rules.today).set.Presentable catalog := ⟨hc.catalog, hc.bound⟩
  exact perform_set_preserves hday fun edit hedit =>
    FilterSet.edited_presentable (edit?_isDated hedit) (edit?_hasShortIntegers he hedit) hday

/-- **After every run the set can be shown.** -/
theorem run_presentable (hopen : onStore catalog rules tokens store = .ok c)
    {events : List (Surroundings × ComposerEvent)}
    (hevents : ∀ e ∈ events, e.2.HasShortIntegers) :
    (c.run events).set.Presentable catalog :=
  run_preserves (P := fun d => d.set.Presentable catalog)
    (fun around _ _ he hd => perform_presentable around he hd)
    (FilterSet.start_presentable (onStore_start hopen)) hevents

/-! ## Views that never fail -/

theorem query_eq (hc : c.set.Presentable catalog) :
    c.query = .ok (Query.ofQueryFilters ((c.set.catalog.bind c.set.filters).map Filter.stated)) :=
  Query.ofFilters_named fun f hf =>
    (hc.sortingKnown f.1 (Catalog.mem_of_mem_bind hf).1).named

theorem params_ok (hc : c.set.Presentable catalog) (separator : Text) :
    ∃ entries, c.params (.text separator) = .ok entries := by
  have htexts : ∀ f ∈ (c.set.catalog.bind c.set.filters).map Filter.stated,
      ∃ t, Query.valueText (.text separator) f.value = .ok t := by
    intro f hf
    obtain ⟨bound, hbound, rfl⟩ := List.mem_map.mp hf
    have hpresentable := hc.of_mem_bind hbound
    exact hpresentable.value.isPlain.valueText_ok hpresentable.short separator
  have hquery : Query.ofFilters c.set.catalog c.set.filters = _ := query_eq hc
  rw [params, Query.paramsOfFilters, hquery]
  exact ⟨_, Query.paramsFrom_ok_iff.mpr ⟨htexts, rfl⟩⟩

theorem payload_ok (hc : c.set.Presentable catalog) {now : Moment} (hnow : now.offset = some 0) :
    ∃ v, c.payload now = .ok v := by
  have hquery : Query.ofFilters c.set.catalog c.set.filters = _ := query_eq hc
  obtain ⟨time, htime⟩ := Query.timestamp_of_utc hnow
  rw [payload, Query.payload, hquery, htime]
  exact ⟨_, rfl⟩

theorem select_ok (hc : c.set.Presentable catalog) (today : Date) (rows : List Row) :
    ∃ out, c.select today rows = .ok out := by
  have hpasses : ∃ out, c.set.evaluate today rows = .ok out ∧ _ :=
    FilterSet.evaluate_perm hc.sortingKnown rows
  obtain ⟨out, hout, -⟩ := hpasses
  exact ⟨out, hout⟩

/-! ## The view that can fail -/

theorem isIncomplete_error_iff (hc : c.set.Presentable catalog) (today : Date) {f : Filter}
    (hf : f ∈ c.set.filters) (fault : Fault) :
    c.isIncomplete today f = .error fault ↔
      fault = .outOfRange ∧
        ∃ d, c.set.catalog.find? f.definitionId = some d ∧ f.ExceedsNumbers d := by
  obtain ⟨d, hd, hpresentable⟩ := hc.bound f hf
  rw [← hc.catalog] at hd
  have hasked : c.isIncomplete today f = .error fault ↔
      d.kind.isComplete today f.operator f.value = .error fault := by
    simp only [isIncomplete, hd]
    constructor
    · intro h
      rcases of_bind_error h with h | ⟨b, -, h⟩
      · exact h
      · cases h
    · intro h
      rw [h]
      rfl
  rw [hasked, hpresentable.isComplete_error_iff, hd]
  simp

/-- **The incomplete filters are found unless an integer beyond the binary64 numbers is among the
values**, and this failure is the only one. -/
theorem incomplete_ok_iff (hc : c.set.Presentable catalog) (today : Date) :
    ((∃ filters, c.incomplete today = .ok filters) ↔
      ∀ f ∈ c.set.filters, ∀ d, c.set.catalog.find? f.definitionId = some d →
        ¬ f.ExceedsNumbers d) ∧
    FailsWith (· = .outOfRange) (c.incomplete today) := by
  refine ⟨?_, fun fault hfail => ?_⟩
  · rw [incomplete, filterM_ok_iff]
    refine forall₂_congr fun f hf => ?_
    have hfails := isIncomplete_error_iff hc today hf
    cases hasked : c.isIncomplete today f with
    | ok b =>
      refine iff_of_true ⟨b, rfl⟩ fun d hd hexceeds => ?_
      have herror := (hfails .outOfRange).mpr ⟨rfl, d, hd, hexceeds⟩
      rw [hasked] at herror
      cases herror
    | error fault =>
      obtain ⟨-, d, hd, hexceeds⟩ := (hfails fault).mp hasked
      exact iff_of_false nofun fun hall => hall d hd hexceeds
  · obtain ⟨f, hf, hasked⟩ := filterM_error hfail
    exact ((isIncomplete_error_iff hc today hf fault).mp hasked).1

/-! ## All views -/

/-- A salary filter is composed, and a number is entered as its value. -/
def enterSalary (n : Int) : List (Surroundings × ComposerEvent) :=
  dropSalary ++ [(.bundled, .update (.text "salary_000000000001") [("value", .int n)])]

theorem run_enterSalary (n : Int) :
    (newDirectory.run (enterSalary n)).set.filters =
      [⟨"salary_000000000001", "salary", .known .greaterThanOrEqual, .int n, none⟩] := rfl

/-- A power of ten below the limit has a text. -/
theorem enterSalary_hasShortIntegers {exponent : Nat} (hpos : 0 < exponent)
    (h : exponent < Numeral.digitLimit) :
    ∀ e ∈ enterSalary (10 ^ exponent), e.2.HasShortIntegers := by
  have hshort : (Value.int (10 ^ exponent)).HasShortIntegers := by
    refine .int ?_
    rw [Int.natAbs_pow]
    exact (Numeral.length_digits_ten_pow hpos).trans_le h
  simp [enterSalary, dropSalary, ComposerEvent.HasShortIntegers, hshort]

/-- A large power of ten is beyond the binary64 numbers. -/
theorem enterSalary_exceedsNumbers {exponent : Nat} (h : 400 < exponent) :
    ∃ f ∈ (newDirectory.run (enterSalary (10 ^ exponent))).set.filters, ∃ d,
      (newDirectory.run (enterSalary (10 ^ exponent))).set.catalog.find? f.definitionId = some d ∧
        f.ExceedsNumbers d := by
  have hsalary : ∃ d, newDirectory.set.catalog.find? "salary" = some d ∧ d.kind = .number :=
    ⟨_, rfl, rfl⟩
  obtain ⟨d, hd, hkind⟩ := hsalary
  rw [run_enterSalary, run_catalog]
  exact ⟨_, List.mem_singleton_self _, d, hd, hkind, ⟨_, rfl, rfl⟩, _, .inl rfl,
    Binary64.ofInt?_ten_pow h⟩

end Composer

end Winnow

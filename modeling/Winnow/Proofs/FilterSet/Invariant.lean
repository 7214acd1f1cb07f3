import Winnow.Catalog.Employees
import Winnow.Proofs.Filter.Conformance
import Winnow.Proofs.Store.Decoding

/-!
# What holds of every set that is edited

A set starts without filters or is read from a blob, whatever is in the blob.  From there on the ids
stay distinct and issued, and every filter conforms to a definition of the catalog, whatever edits
are asked for and whichever of them fail.

* `FilterSet.Start` : how a set starts;
* `FilterSet.Invariant` : the invariant;
* `FilterSet.start_invariant`, `FilterSet.edited_invariant` : it holds at the start, and every edit
  keeps it;
* `FilterSet.run_of_settings_invariant` : under settings that keep their rules it holds after every
  run of edits.
-/

namespace Winnow.FilterSet

/-- How a set starts: without filters, or as what a blob holds. -/
inductive Start (c : Catalog) (rules : Rules) : FilterSet → Prop
  | empty (tokens : Tokens) (today : Text) : Start c rules (ofFilters c tokens today [])
  | stored {tokens : Tokens} {blob : Blob} {s : FilterSet}
    (h : deserialize c rules tokens blob = .ok s) : Start c rules s

/-- The ids are distinct and issued, and every filter conforms to its definition in the catalog. -/
structure Invariant (c : Catalog) (rules : Rules) (s : FilterSet) : Prop where
  catalog : s.catalog = c
  ids : s.IdsDistinct
  bound : ∀ f ∈ s.filters, ∃ d, c.find? f.definitionId = some d ∧ f.ConformsTo rules d

variable {c : Catalog} {rules : Rules} {s : FilterSet}

theorem start_invariant (hrules : rules.AdmitDefaults) (hstart : Start c rules s) :
    s.Invariant c rules := by
  cases hstart with
  | empty tokens today => exact ⟨rfl, ofFilters_idsDistinct List.nodup_nil, nofun⟩
  | stored h =>
    obtain ⟨hcatalog, hids, hresolve⟩ := deserialize_spec h
    refine ⟨hcatalog, hids, fun f hf => ?_⟩
    obtain ⟨item, hitem⟩ := hresolve f hf
    exact Filter.resolve_conformsTo hrules hitem

/-- What new filters have and patches keep, every change keeps, if a new filter takes its day from a
date. -/
theorem Change.forall_bound {P : Definition → Filter → Prop}
    (hnew : ∀ (d : Definition) (id : Text) (day : Date),
      P d ⟨id, d.id, .known d.defaultOperator, d.kind.defaultValue day.isoText, none⟩)
    (hpatch : ∀ {d : Definition} {f g : Filter} {p : Patch}, P d f →
      p.apply rules (some d) f = .ok g → P d g)
    {e : Edit} {filters : List Filter} {issued : List Text} (hdated : e.IsDated)
    (hcatalog : s.catalog = c)
    (hs : ∀ f ∈ s.filters, ∃ d, c.find? f.definitionId = some d ∧ P d f)
    (hchange : Change rules s e filters issued) :
    ∀ f ∈ filters, ∃ d, c.find? f.definitionId = some d ∧ P d f := by
  cases hchange with
  | rearranged hsub => exact fun f hf => hs f (hsub.subset hf)
  | @composed clock id definitionId d hedit hfresh hdefinition =>
    subst hedit
    obtain ⟨day, rfl⟩ := hdated
    intro f hf
    rcases List.mem_append.mp hf with hf | hf
    · exact hs f hf
    · rw [List.mem_singleton.mp hf]
      exact ⟨d, hcatalog ▸ hdefinition, hnew d id day⟩
  | @patched i old f p hold happly =>
    have hmem : old ∈ s.filters := List.mem_of_getElem? hold
    obtain ⟨d, hdefinition, hkept⟩ := hs old hmem
    rw [hcatalog, hdefinition] at happly
    intro g hg
    rcases List.mem_or_eq_of_mem_set hg with hg | rfl
    · exact hs g hg
    · have hid : g.definitionId = old.definitionId := Patch.apply_definitionId happly
      exact ⟨d, hid ▸ hdefinition, hpatch hkept happly⟩

/-- Every change keeps the filters conforming, if a new filter takes its day from a date. -/
theorem Change.bound {e : Edit} {filters : List Filter} {issued : List Text}
    (hrules : rules.AdmitDefaults) (hdated : e.IsDated) (hs : s.Invariant c rules)
    (hchange : Change rules s e filters issued) :
    ∀ f ∈ filters, ∃ d, c.find? f.definitionId = some d ∧ f.ConformsTo rules d :=
  hchange.forall_bound (fun d id day => Filter.new_conformsTo hrules d id day)
    (fun hf happly => Filter.patch_conformsTo hf happly) hdated hs.catalog hs.bound

/-- **Every edit keeps the invariant**, also one that fails. -/
theorem edited_invariant (hrules : rules.AdmitDefaults) {e : Edit} (hdated : e.IsDated)
    (hs : s.Invariant c rules) : (s.edited rules e).Invariant c rules :=
  ⟨(edited_catalog rules s e).trans hs.catalog, edited_idsDistinct rules e hs.ids,
    (edited_change rules s e).bound hrules hdated hs⟩

theorem run_invariant (hrules : rules.AdmitDefaults) (hstart : Start c rules s)
    {edits : List Edit} (hdated : ∀ e ∈ edits, e.IsDated) :
    (s.run rules edits).Invariant c rules :=
  run_preserves rules (fun _ _ he hs => edited_invariant hrules he hs)
    (start_invariant hrules hstart) hdated

theorem start_catalog (hstart : Start c rules s) : s.catalog = c := by
  cases hstart with
  | empty tokens today => rfl
  | stored h => exact (deserialize_spec h).1

theorem start_idsDistinct (hstart : Start c rules s) : s.IdsDistinct := by
  cases hstart with
  | empty tokens today => exact ofFilters_idsDistinct List.nodup_nil
  | stored h => exact (deserialize_spec h).2.1

/-! ## Directions alone -/

theorem start_sortingKnown (hstart : Start c rules s) : ∀ f ∈ s.filters, f.SortingKnown := by
  cases hstart with
  | empty tokens today => exact nofun
  | stored h =>
    intro f hf
    obtain ⟨_, _, hresolve⟩ := deserialize_spec h
    obtain ⟨item, hitem⟩ := hresolve f hf
    exact Filter.resolve_sortingKnown hitem

theorem Change.sortingKnown {e : Edit} {filters : List Filter} {issued : List Text}
    (hs : ∀ f ∈ s.filters, f.SortingKnown) (hchange : Change rules s e filters issued) :
    ∀ f ∈ filters, f.SortingKnown := by
  intro f hf
  cases hchange with
  | rearranged hsub => exact hs f (hsub.subset hf)
  | composed hedit hfresh hdefinition =>
    rcases List.mem_append.mp hf with hf | hf
    · exact hs f hf
    · rw [List.mem_singleton.mp hf]
      exact .inl rfl
  | patched hold hpatch =>
    rcases List.mem_or_eq_of_mem_set hf with hf | rfl
    · exact hs f hf
    · exact Filter.patch_sortingKnown (hs _ (List.mem_of_getElem? hold)) hpatch

/-- The directions of a set are known after every run of edits, under whatever rules and clock. -/
theorem run_sortingKnown (hstart : Start c rules s) (edits : List Edit) :
    ∀ f ∈ (s.run rules edits).filters, f.SortingKnown :=
  run_preserves rules (fun s e (_ : True) hs => (edited_change rules s e).sortingKnown hs)
    (start_sortingKnown hstart) fun _ _ => trivial

end Winnow.FilterSet

import Winnow.Catalog
import Winnow.Filter

/-!
# Filters bound to definitions

`Catalog.bind` finds the definitions of filters.  Filters whose definition is not in the catalog are
left out; they take part in nothing.
-/

namespace Winnow.Catalog

/-- The filters whose definition is in the catalog, with it. -/
def bind (c : Catalog) (filters : List Filter) : List (Filter × Definition) :=
  filters.filterMap fun f => (c.find? f.definitionId).map (f, ·)

theorem mem_of_mem_bind {c : Catalog} {filters : List Filter} {f : Filter × Definition}
    (hf : f ∈ c.bind filters) :
    f.1 ∈ filters ∧ c.find? f.1.definitionId = some f.2 ∧ f.2 ∈ c.definitions := by
  obtain ⟨g, hg, hdefinition⟩ := List.mem_filterMap.mp hf
  obtain ⟨d, hd, rfl⟩ := Option.map_eq_some_iff.mp hdefinition
  exact ⟨hg, hd, List.mem_of_find?_eq_some hd⟩

end Winnow.Catalog

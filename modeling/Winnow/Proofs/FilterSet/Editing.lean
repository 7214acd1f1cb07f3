import Mathlib.Data.List.Nodup
import Mathlib.Data.List.Perm.Subperm
import Winnow.Proofs.Filter.Patch
import Winnow.Proofs.FilterSet.Fresh

/-!
# Runs of edits

A set is edited step after step.  An edit that fails leaves the set as it is.

* `Edit`, `FilterSet.edited`, `FilterSet.run` : one edit, and a list of them in order;
* `FilterSet.Change` : all that an edit can do to the filters and to the issued ids;
* `FilterSet.edited_change` : every edit does one of these;
* `FilterSet.mem_edited` : where a filter comes from that is there after an edit;
* `FilterSet.run_preserves` : what every change keeps, every run keeps;
* `FilterSet.edited_idsDistinct` : ids stay distinct and recorded as issued.
-/

namespace Winnow

/-- An edit of a filter set.  A new filter takes the text of the present day from a clock. -/
inductive Edit where
  | compose (clock : Text) (definitionId : Value)
  | update (id : Value) (p : Patch)
  | remove (id : Value)
  | reorder (id target : Value)
  | clear

/-- Whether the clock of an edit gives the ISO text of a date. -/
def Edit.IsDated : Edit → Prop
  | .compose clock _ => ∃ day : Date, clock = day.isoText
  | _ => True

namespace FilterSet

/-- What an edit makes of a set, unless it fails. -/
def perform (rules : Rules) (s : FilterSet) : Edit → Except Fault FilterSet
  | .compose clock definitionId => do return (← { s with today := clock }.compose definitionId).2
  | .update id p => do return (← s.update rules id p).2
  | .remove id => .ok (s.remove id).2
  | .reorder id target => .ok (s.reorder id target).2
  | .clear => .ok s.clear

/-- The set after an edit, also after one that fails. -/
def edited (rules : Rules) (s : FilterSet) (e : Edit) : FilterSet :=
  match s.perform rules e with
  | .ok t => t
  | .error _ => s

/-- The set after a list of edits. -/
def run (rules : Rules) (s : FilterSet) (edits : List Edit) : FilterSet :=
  edits.foldl (edited rules) s

/-! ## What an edit can do -/

/-- What an edit can make of the filters and of the issued ids of a set: it takes some of the
filters in some order, appends a new filter for a definition, or patches one filter. -/
inductive Change (rules : Rules) (s : FilterSet) (e : Edit) : List Filter → List Text → Prop
  | rearranged {filters : List Filter} (hsub : filters.Subperm s.filters) :
    Change rules s e filters s.issued
  | composed {clock id : Text} {definitionId : Value} {d : Definition}
    (hedit : e = .compose clock definitionId) (hfresh : id ∉ s.issued)
    (hdefinition : s.catalog.find? d.id = some d) :
    Change rules s e
      (s.filters ++ [⟨id, d.id, .known d.defaultOperator, d.kind.defaultValue clock, none⟩])
      (id :: s.issued)
  | patched {i : Nat} {old f : Filter} {p : Patch} (hold : s.filters[i]? = some old)
    (hpatch : p.apply rules (s.catalog.find? old.definitionId) old = .ok f) :
    Change rules s e (s.filters.set i f) s.issued

theorem Change.refl (rules : Rules) (s : FilterSet) (e : Edit) :
    Change rules s e s.filters s.issued :=
  .rearranged (List.Subperm.refl _)

end FilterSet

theorem Catalog.find?_id {c : Catalog} {id : Text} {d : Definition} (h : c.find? id = some d) :
    d.id = id := by
  unfold Catalog.find? at h
  simpa using List.find?_some h

theorem Catalog.find?_of_lookup {c : Catalog} {id : Value} {d : Definition}
    (h : c.lookup id = .ok (some d)) : c.find? d.id = some d := by
  unfold Catalog.lookup at h
  split at h
  · rename_i t
    have hfind : c.find? t = some d := by simpa using h
    rw [Catalog.find?_id hfind]
    exact hfind
  · split at h <;> cases h

namespace FilterSet

variable {rules : Rules} {s t : FilterSet}

/-- The place and the filter that are found for one id belong together. -/
theorem getElem?_of_place? {id : Value} {filters : List Filter} {i : Nat} {f : Filter}
    (hplace : place? id filters = some i) (hfind : filters.find? (Filter.hasId id) = some f) :
    filters[i]? = some f := by
  unfold place? at hplace
  induction filters generalizing i with
  | nil => simp at hplace
  | cons g gs ih =>
    simp only [List.findIdx?_cons, List.find?_cons] at hplace hfind
    cases hg : Filter.hasId id g with
    | true =>
      simp only [hg, if_true] at hplace hfind
      cases hplace
      simpa using hfind
    | false =>
      simp only [hg, Bool.false_eq_true, if_false, Option.map_eq_some_iff] at hplace hfind
      obtain ⟨j, hj, rfl⟩ := hplace
      simpa using ih hj hfind

theorem compose_spec {definitionId : Value} {f : Filter} (h : s.compose definitionId = .ok (f, t)) :
    ∃ d : Definition, s.catalog.find? d.id = some d ∧ f.id ∉ s.issued ∧
      f = ⟨f.id, d.id, .known d.defaultOperator, d.kind.defaultValue s.today, none⟩ ∧
      t.catalog = s.catalog ∧ t.filters = s.filters ++ [f] ∧ t.issued = f.id :: s.issued := by
  unfold compose at h
  obtain ⟨found, hlookup, h⟩ := Outcome.of_bind_ok h
  cases found with
  | none =>
    obtain ⟨id, _, h⟩ := Outcome.of_bind_ok h
    cases h
  | some d =>
    cases h
    exact ⟨d, Catalog.find?_of_lookup hlookup, Tokens.fresh_not_mem _ _ _, rfl, rfl, rfl, rfl⟩

theorem update_spec {id : Value} {p : Patch} {updated : Option Filter}
    (h : s.update rules id p = .ok (updated, t)) :
    t = s ∨ ∃ i old f, s.filters[i]? = some old ∧
      p.apply rules (s.catalog.find? old.definitionId) old = .ok f ∧
      t = { s with filters := s.filters.set i f } := by
  unfold update at h
  split at h
  · rename_i i old hplace hget
    obtain ⟨f, hpatch, h⟩ := Outcome.of_bind_ok h
    cases h
    exact .inr ⟨i, old, f, getElem?_of_place? hplace hget, hpatch, rfl⟩
  · obtain ⟨_, _, h⟩ := Outcome.of_bind_ok h
    cases h
    exact .inl rfl

theorem remove_sublist (id : Value) : (s.remove id).2.filters.Sublist s.filters := by
  unfold remove
  split
  · exact List.Sublist.refl _
  · exact List.eraseIdx_sublist _ _

/-- Moving a filter keeps all filters. -/
theorem moveBefore_perm (id target : Value) (filters : List Filter) :
    (moveBefore id target filters).2.Perm filters := by
  unfold moveBefore
  split
  · exact List.Perm.refl _
  · split
    · rename_i moved i _ hfind hplace _
      have hmoved : filters[i]? = some moved := getElem?_of_place? hplace hfind
      obtain ⟨hi, hget⟩ := List.getElem?_eq_some_iff.mp hmoved
      have hle : (filters.eraseIdx i).findIdx (Filter.hasId target) ≤ (filters.eraseIdx i).length :=
        List.findIdx_le_length
      refine (List.perm_insertIdx moved _ hle).trans ?_
      rw [← hget]
      exact List.getElem_cons_eraseIdx_perm hi
    · exact List.Perm.refl _

theorem remove_frame (id : Value) :
    (s.remove id).2.catalog = s.catalog ∧ (s.remove id).2.issued = s.issued := by
  unfold remove
  split <;> exact ⟨rfl, rfl⟩

/-- **Every edit that succeeds makes one of the changes**, and keeps the catalog. -/
theorem perform_spec {e : Edit} (h : s.perform rules e = .ok t) :
    t.catalog = s.catalog ∧ Change rules s e t.filters t.issued := by
  cases e with
  | compose clock definitionId =>
    obtain ⟨⟨f, u⟩, hcompose, h⟩ := Outcome.of_bind_ok h
    cases h
    obtain ⟨d, hdefinition, hfresh, hf, hcatalog, hfilters, hissued⟩ := compose_spec hcompose
    refine ⟨hcatalog, ?_⟩
    rw [hfilters, hissued, hf]
    exact .composed rfl hfresh hdefinition
  | update id p =>
    obtain ⟨⟨updated, u⟩, hupdate, h⟩ := Outcome.of_bind_ok h
    cases h
    rcases update_spec hupdate with rfl | ⟨i, old, f, hold, hpatch, rfl⟩
    · exact ⟨rfl, .refl rules u _⟩
    · exact ⟨rfl, .patched hold hpatch⟩
  | remove id =>
    cases h
    obtain ⟨hcatalog, hissued⟩ := remove_frame (s := s) id
    refine ⟨hcatalog, ?_⟩
    rw [hissued]
    exact .rearranged (remove_sublist id).subperm
  | reorder id target =>
    cases h
    exact ⟨rfl, .rearranged (moveBefore_perm id target s.filters).subperm⟩
  | clear =>
    cases h
    exact ⟨rfl, .rearranged List.nil_subperm⟩

theorem edited_catalog (rules : Rules) (s : FilterSet) (e : Edit) :
    (s.edited rules e).catalog = s.catalog := by
  unfold edited
  split
  · rename_i t hperform
    exact (perform_spec hperform).1
  · rfl

theorem edited_change (rules : Rules) (s : FilterSet) (e : Edit) :
    Change rules s e (s.edited rules e).filters (s.edited rules e).issued := by
  unfold edited
  split
  · rename_i t hperform
    exact (perform_spec hperform).2
  · exact .refl rules s e

/-- **Every filter after an edit has an origin**: it was there before, the edit composed it for a
definition, or the edit's patch made it of a filter that was there. -/
theorem mem_edited {e : Edit} {f : Filter} (hf : f ∈ (s.edited rules e).filters) :
    f ∈ s.filters ∨
    (∃ clock definitionId d, e = .compose clock definitionId ∧ s.catalog.find? d.id = some d ∧
      f = ⟨f.id, d.id, .known d.defaultOperator, d.kind.defaultValue clock, none⟩) ∨
    ∃ id p old, e = .update id p ∧ old ∈ s.filters ∧
      p.apply rules (s.catalog.find? old.definitionId) old = .ok f := by
  unfold edited at hf
  split at hf
  · rename_i t hperform
    cases e with
    | compose clock definitionId =>
      obtain ⟨⟨g, u⟩, hcompose, h⟩ := Outcome.of_bind_ok hperform
      cases h
      obtain ⟨d, hdefinition, -, hg, -, hfilters, -⟩ := compose_spec hcompose
      rw [hfilters, List.mem_append, List.mem_singleton] at hf
      rcases hf with hf | rfl
      · exact .inl hf
      · exact .inr (.inl ⟨clock, definitionId, d, rfl, hdefinition, hg⟩)
    | update id p =>
      obtain ⟨⟨updated, u⟩, hupdate, h⟩ := Outcome.of_bind_ok hperform
      cases h
      rcases update_spec hupdate with rfl | ⟨i, old, g, hold, hpatch, rfl⟩
      · exact .inl hf
      · rcases List.mem_or_eq_of_mem_set hf with hf | rfl
        · exact .inl hf
        · exact .inr (.inr ⟨id, p, old, rfl, List.mem_of_getElem? hold, hpatch⟩)
    | remove id =>
      cases hperform
      exact .inl ((remove_sublist id).subset hf)
    | reorder id target =>
      cases hperform
      exact .inl ((moveBefore_perm id target s.filters).subset hf)
    | clear =>
      cases hperform
      cases hf
  · exact .inl hf

theorem run_catalog (rules : Rules) (s : FilterSet) (edits : List Edit) :
    (s.run rules edits).catalog = s.catalog := by
  induction edits generalizing s with
  | nil => rfl
  | cons e es ih => exact (ih (s.edited rules e)).trans (edited_catalog rules s e)

/-- What every edit of a kind keeps, every run of such edits keeps. -/
theorem run_preserves {P : FilterSet → Prop} {Q : Edit → Prop} (rules : Rules)
    (hedit : ∀ (s : FilterSet) (e : Edit), Q e → P s → P (s.edited rules e)) (hs : P s)
    {edits : List Edit} (hedits : ∀ e ∈ edits, Q e) : P (s.run rules edits) := by
  induction edits generalizing s with
  | nil => exact hs
  | cons e es ih =>
    exact ih (hedit s e (hedits e List.mem_cons_self) hs)
      fun e' he' => hedits e' (List.mem_cons_of_mem e he')

/-! ## Ids -/

/-- The ids of the filters are distinct, and recorded as issued. -/
structure IdsDistinct (s : FilterSet) : Prop where
  distinct : (s.filters.map Filter.id).Nodup
  issued : ∀ f ∈ s.filters, f.id ∈ s.issued

theorem ofFilters_idsDistinct {c : Catalog} {tokens : Tokens} {today : Text} {filters : List Filter}
    (h : (filters.map Filter.id).Nodup) : (ofFilters c tokens today filters).IdsDistinct :=
  ⟨h, fun _ hf => List.mem_map_of_mem hf⟩

/-- A change records the ids of the filters that it leaves. -/
theorem Change.recorded {e : Edit} {filters : List Filter} {issued : List Text}
    (hs : ∀ f ∈ s.filters, f.id ∈ s.issued) (hchange : Change rules s e filters issued) :
    ∀ f ∈ filters, f.id ∈ issued := by
  intro f hf
  cases hchange with
  | rearranged hsub => exact hs f (hsub.subset hf)
  | composed hedit hfresh hdefinition =>
    rcases List.mem_append.mp hf with hf | hf
    · exact List.mem_cons_of_mem _ (hs f hf)
    · rw [List.mem_singleton.mp hf]
      exact List.mem_cons_self
  | @patched i old patched p hold hpatch =>
    rcases List.mem_or_eq_of_mem_set hf with hf | rfl
    · exact hs f hf
    · have hid : f.id = old.id := Patch.apply_id hpatch
      exact hid ▸ hs old (List.mem_of_getElem? hold)

/-- A change keeps ids distinct: a new id is fresh, and a patch keeps the id. -/
theorem Change.distinct {e : Edit} {filters : List Filter} {issued : List Text}
    (h : s.IdsDistinct) (hchange : Change rules s e filters issued) :
    (filters.map Filter.id).Nodup := by
  cases hchange with
  | rearranged hsub =>
    obtain ⟨kept, hperm, hkept⟩ := hsub
    exact (hperm.map Filter.id).nodup_iff.mp ((hkept.map Filter.id).nodup h.distinct)
  | composed hedit hfresh hdefinition =>
    rw [List.map_append, List.map_cons, List.map_nil]
    refine List.Nodup.append h.distinct (List.nodup_singleton _) ?_
    rw [List.disjoint_singleton]
    intro hmem
    obtain ⟨f, hf, hid⟩ := List.mem_map.mp hmem
    have hissued := h.issued f hf
    rw [hid] at hissued
    exact hfresh hissued
  | @patched i old f p hold hpatch =>
    have hid : f.id = old.id := Patch.apply_id hpatch
    obtain ⟨hi, hget⟩ := List.getElem?_eq_some_iff.mp hold
    have hlength : i < (s.filters.map Filter.id).length := by rwa [List.length_map]
    have hold : (s.filters.map Filter.id)[i] = old.id := by rw [List.getElem_map, hget]
    rw [List.map_set, hid, ← hold, List.set_getElem_self]
    exact h.distinct

theorem edited_idsDistinct (rules : Rules) (e : Edit) (h : s.IdsDistinct) :
    (s.edited rules e).IdsDistinct :=
  ⟨(edited_change rules s e).distinct h, (edited_change rules s e).recorded h.issued⟩

end FilterSet

end Winnow

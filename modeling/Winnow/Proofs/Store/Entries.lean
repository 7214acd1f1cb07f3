import Winnow.Proofs.Filter.Conformance
import Winnow.Proofs.Store.Hydration

/-!
# Stored filters entry by entry

A list of items is read item by item.  Those that make filters make them in their order, of which the
first with each id stays, and all others are dropped, unless one of them has a date whose time of day
has too many digits.

* `FilterSet.foldl_addDistinct_eq` : the first filter with each id stays;
* `FilterSet.storedFilters_of_not_overlong` : the filters of a list of items;
* `Filter.Stray` : an item that is no object, or has no id, no definition of the catalog, or a
  direction out of the vocabulary;
* `FilterSet.storedFilters_insert_stray` : such an item makes no difference, wherever it stands;
* `FilterSet.deserialize_entries` : the same of a blob.
-/

namespace Winnow

open Outcome

namespace FilterSet

variable {c : Catalog} {rules : Rules} {items : List Value}

/-! ## The first of each id -/

/-- The filters without those whose id an earlier one has. -/
def firstOfEachId (filters : List Filter) : List Filter :=
  filters.eraseDupsBy fun f g => f.id == g.id

/-- To append filters whose ids are free is to append the first of each id among those whose id is
not taken already. -/
theorem foldl_addDistinct_eq (fs filters : List Filter) :
    fs.foldl addDistinct filters =
      filters ++ firstOfEachId (fs.filter fun f => !filters.any fun g => g.id == f.id) := by
  induction fs generalizing filters with
  | nil => exact (List.append_nil filters).symm
  | cons f fs ih =>
    rw [List.foldl_cons, ih, List.filter_cons]
    cases htaken : filters.any fun g => g.id == f.id with
    | true => rw [addDistinct, htaken]; rfl
    | false =>
      have hadded : addDistinct filters f = filters ++ [f] := by rw [addDistinct, htaken]; rfl
      have hlater : (fs.filter fun h => !(filters ++ [f]).any fun g => g.id == h.id) =
          (fs.filter fun h => !filters.any fun g => g.id == h.id).filter
            fun h => decide ((h.id == f.id) = false) := by
        rw [List.filter_filter]
        refine List.filter_congr fun h _ => ?_
        rw [List.any_append, Bool.not_or, Bool.and_comm, List.any_cons, List.any_nil, Bool.or_false,
          BEq.comm, Bool.decide_eq_false]
      rw [hadded, hlater, List.append_assoc, firstOfEachId, firstOfEachId, Bool.not_false,
        if_pos rfl, List.eraseDupsBy_cons]
      rfl

/-! ## Items that make filters -/

theorem storedFilter_of_not_overlong {item : Value} (h : ¬ Filter.HasOverlongTime c rules item) :
    storedFilter c rules item = .ok (Filter.resolve c rules item).toOption := by
  cases hstored : storedFilter c rules item with
  | error fault => exact absurd (storedFilter_error_iff.mp hstored).2 h
  | ok found =>
    cases found with
    | some f => rw [resolve_of_storedFilter hstored]; rfl
    | none =>
      cases hresolve : Filter.resolve c rules item with
      | error fault => rfl
      | ok f =>
        rw [storedFilter_of_resolve hresolve] at hstored
        cases hstored

/-- The filters that items make for a catalog, in their order. -/
def resolved (c : Catalog) (rules : Rules) (items : List Value) : List Filter :=
  items.filterMap fun item => (Filter.resolve c rules item).toOption

/-- **The filters of a list of items** are the first of each id among those that the items make,
unless an item has a date whose time of day has too many digits. -/
theorem storedFilters_of_not_overlong
    (h : ∀ item ∈ items, ¬ Filter.HasOverlongTime c rules item) :
    storedFilters c rules items = .ok (firstOfEachId (resolved c rules items)) := by
  have hfree (fs : List Filter) :
      fs.filter (fun f => !([] : List Filter).any fun g => g.id == f.id) = fs :=
    List.filter_eq_self.mpr fun _ _ => rfl
  unfold storedFilters
  rw [mapM_eq_map fun item hitem => storedFilter_of_not_overlong (h item hitem)]
  show Except.ok (List.foldl addDistinct [] (List.filterMap id _)) = _
  rw [List.filterMap_map, foldl_addDistinct_eq, List.nil_append, hfree]
  rfl

end FilterSet

/-! ## Items that are dropped -/

namespace Filter

/-- An item that makes no filter for a catalog: it is no object, it lacks an id or the id of a
definition, the catalog does not have the definition, or the direction is not of the vocabulary. -/
inductive Stray (c : Catalog) : Value → Prop
  | noObject {v : Value} (h : ∀ entries, v ≠ .object entries) : Stray c v
  | noId {entries : Value.Entries} (h : Value.find? "id" entries = none) : Stray c (.object entries)
  | noDefinition {entries : Value.Entries} (h : Value.find? "definitionId" entries = none)
    (hlegacy : Value.find? "filterId" entries = none) : Stray c (.object entries)
  | unknown {entries : Value.Entries} {v : Value} (h : entryDefinition entries = .ok v)
    (hunknown : ∀ t, v.plainText = .ok t → c.find? t = none) : Stray c (.object entries)
  | misdirected {entries : Value.Entries} {v : Value}
    (h : (Value.find? "sortDirection" entries).or (Value.find? "sortOrder" entries) = some v)
    (hnull : v ≠ .null) (hword : ∀ d : Direction, v ≠ .text d.word) : Stray c (.object entries)

/-- A stray item makes no filter with a definition. -/
theorem Stray.not_bound {c : Catalog} {item : Value} (h : Stray c item) {f : Filter}
    (hread : ofEntry item = .ok f) : c.find? f.definitionId = none := by
  cases h with
  | noObject h =>
    cases item with
    | object entries => exact absurd rfl (h entries)
    | _ => cases hread
  | noId h =>
    obtain ⟨⟨v, hid, -⟩, -⟩ := ofParts_ok hread
    rw [required, h] at hid
    cases hid
  | noDefinition h hlegacy =>
    obtain ⟨-, ⟨v, hdefinition, -⟩, -⟩ := ofParts_ok hread
    rw [entryDefinition, h] at hdefinition
    dsimp only at hdefinition
    rw [required, hlegacy] at hdefinition
    cases hdefinition
  | unknown h hunknown =>
    obtain ⟨-, ⟨v, hdefinition, htext⟩, -⟩ := ofParts_ok hread
    rw [h, Except.ok.injEq] at hdefinition
    exact hunknown _ (hdefinition ▸ htext)
  | @misdirected entries v h hnull hword =>
    obtain ⟨-, -, -, -, hsorting⟩ := ofParts_ok hread
    unfold entrySorting at hsorting
    rw [Option.orElse_eq_or, h] at hsorting
    cases hvalue : v with
    | null => exact absurd hvalue hnull
    | _ =>
      subst hvalue
      obtain ⟨d, hd, -⟩ := of_bind_ok hsorting
      exact absurd (Direction.ofValue_eq_ok_iff.mp hd) (hword d)

end Filter

namespace FilterSet

variable {c : Catalog} {rules : Rules}

theorem storedFilter_of_stray {item : Value} (h : Filter.Stray c item) :
    storedFilter c rules item = .ok none := by
  have hunresolved : (Filter.resolve c rules item).toOption = none := by
    cases hresolve : Filter.resolve c rules item with
    | error fault => rfl
    | ok f =>
      obtain ⟨read, hread, hresolve⟩ := of_bind_ok hresolve
      rw [h.not_bound hread] at hresolve
      cases hresolve
  have hshort : ¬ Filter.HasOverlongTime c rules item := by
    rintro ⟨f, d, hread, hdefinition, -⟩
    rw [h.not_bound hread] at hdefinition
    cases hdefinition
  rw [storedFilter_of_not_overlong hshort, hunresolved]

/-- **A stray item makes no difference**, wherever it stands. -/
theorem storedFilters_insert_stray {stray : Value} (h : Filter.Stray c stray)
    (before after : List Value) :
    storedFilters c rules (before ++ stray :: after) = storedFilters c rules (before ++ after) := by
  unfold storedFilters
  rw [List.mapM_append, List.mapM_append, List.mapM_cons, storedFilter_of_stray h]
  cases before.mapM (storedFilter c rules) with
  | error fault => rfl
  | ok found =>
    cases after.mapM (storedFilter c rules) with
    | error fault => rfl
    | ok others =>
      show Except.ok (List.foldl addDistinct [] (List.filterMap id (found ++ none :: others))) =
        Except.ok (List.foldl addDistinct [] (List.filterMap id (found ++ others)))
      rw [List.filterMap_append, List.filterMap_append, List.filterMap_cons_none rfl]

/-! ## Blobs -/

/-- **A stored list is read entry by entry.**  The set has the filters that its items make, in their
order, and of those with one id the first, unless there is an item with a date whose time of day has
too many digits, at which the reading fails.  A stray item makes no difference, wherever it stands
and whatever id it has. -/
theorem deserialize_entries (c : Catalog) (rules : Rules) (tokens : Tokens) {blob : Blob}
    {items : List Value} (hitems : storedItems blob = .ok items) :
    ((∀ item ∈ items, ¬ Filter.HasOverlongTime c rules item) →
      deserialize c rules tokens blob =
        .ok (ofFilters c tokens rules.today.isoText (firstOfEachId (resolved c rules items)))) ∧
    ((∃ item ∈ items, Filter.HasOverlongTime c rules item) →
      deserialize c rules tokens blob = .error .tooManyPlaces) ∧
    ∀ (before after : List Value) (stray : Value) (other : Blob), items = before ++ after →
      Filter.Stray c stray → storedItems other = .ok (before ++ stray :: after) →
        deserialize c rules tokens other = deserialize c rules tokens blob := by
  refine ⟨fun h => ?_, fun h => ?_, fun before after stray other hsplit hstray hother => ?_⟩
  · rw [deserialize_eq hitems, storedFilters_of_not_overlong h]
    rfl
  · rw [deserialize_eq hitems, storedFilters_error_iff.mpr ⟨rfl, h⟩]
    rfl
  · rw [deserialize_eq hitems, deserialize_eq hother, hsplit, storedFilters_insert_stray hstray]

/-- Two entries with one id, after the text of other ones. -/
def twinsAfter (others : Text) : Blob :=
  .text (("[" : Text) ++ others ++
    ("\x7b\"id\":1,\"filterId\":\"city\"\x7d,\x7b\"id\":\"1\",\"filterId\":\"salary\"\x7d]" : Text))

/-- An entry with a time of day that has far too many digits. -/
def overlongEntry : Blob :=
  .text "[\x7b\"id\":\"a\",\"definitionId\":\"startDate\",\"value\":\"10:11111111111111111111111111111\"\x7d]"

/-- An entry without a definition stands before the two, and has their id too. -/
theorem deserialize_entries_twins :
    deserialize Employees.catalog ⟨default, Settings.bundled.limits⟩ ⟨[], 0⟩
        (twinsAfter "\x7b\"id\":\"1\"\x7d,") =
      deserialize Employees.catalog ⟨default, Settings.bundled.limits⟩ ⟨[], 0⟩ (twinsAfter []) ∧
    deserialize Employees.catalog ⟨default, Settings.bundled.limits⟩ ⟨[], 0⟩ (twinsAfter []) =
      .ok (ofFilters Employees.catalog ⟨[], 0⟩ (default : Date).isoText
        [⟨"1", "city", .known .equals, .null, none⟩]) := by
  let city : Value := .object [("id", .int 1), ("filterId", .text "city")]
  let salary : Value := .object [("id", .text "1"), ("filterId", .text "salary")]
  have htwins : storedItems (twinsAfter []) = .ok [city, salary] := rfl
  obtain ⟨hread, -, hinsert⟩ := deserialize_entries Employees.catalog
    ⟨default, Settings.bundled.limits⟩ ⟨[], 0⟩ htwins
  refine ⟨hinsert [] [city, salary] (.object [("id", .text "1")]) _ rfl (.noDefinition rfl rfl) rfl,
    (hread fun item hitem hlong => ?_).trans rfl⟩
  have hfail : storedFilter _ _ item = .error .tooManyPlaces :=
    storedFilter_error_iff.mpr ⟨rfl, hlong⟩
  rcases List.mem_pair.mp hitem with rfl | rfl
  · cases hfail
  · cases hfail

/-- **Not every stored list is read.** -/
theorem not_deserialize_entries :
    ¬ ∀ (blob : Blob) (items : List Value), storedItems blob = .ok items →
      ∃ s, deserialize Employees.catalog ⟨default, Settings.bundled.limits⟩ ⟨[], 0⟩ blob =
        .ok s := by
  intro h
  have hread : (storedItems overlongEntry).isOk = true := by decide +kernel
  have hfail : (deserialize Employees.catalog ⟨default, Settings.bundled.limits⟩ ⟨[], 0⟩
      overlongEntry).isOk = false := by decide +kernel
  cases hitems : storedItems overlongEntry with
  | error fault =>
    rw [hitems] at hread
    cases hread
  | ok items =>
    obtain ⟨s, hs⟩ := h overlongEntry items hitems
    rw [hs] at hfail
    cases hfail

end FilterSet

end Winnow

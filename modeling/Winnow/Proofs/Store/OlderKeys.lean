import Mathlib.Logic.Relation
import Winnow.Proofs.Store.Decoding
import Winnow.Proofs.Value.Entries
import Winnow.Catalog.Employees
import Winnow.Settings

/-!
# Older and unknown keys

An entry is read by the keys that it needs.  Two of them have an older name, which counts where the
newer one is missing, also where its value is null.  So a stored list is read alike if keys of some
entries get their older names, if keys are added that no one reads, and if an older name is added
beside the newer one.

* `Filter.Rekeyed` : one change of the keys of an entry that makes no difference;
* `Filter.ReadAlike` : two entries with the same values under the keys that are read;
* `Filter.Rekeyed.ofEntry_eq` : such a change leaves the filter of an entry alone;
* `FilterSet.deserialize_rekeyed` : any number of them leave the set of a stored list alone.
-/

namespace Winnow

namespace Filter

/-! ## Keys -/

/-- The keys of an entry that have one name. -/
def plainKeys : List Text := ["id", "operator", "value"]

/-- The keys of an entry that have an older name, with that name. -/
def olderKeys : List (Text × Text) := [("definitionId", "filterId"), ("sortDirection", "sortOrder")]

/-- The keys that are read of an entry. -/
def entryKeys : List Text := plainKeys ++ olderKeys.map Prod.fst ++ olderKeys.map Prod.snd

/-- One change of the keys of an entry.  A key that has an older name gets that name, which was
free, and its place may change; or a key that is not read is added; or an older name is added to an
entry with the newer one. -/
inductive Rekeyed : Value → Value → Prop
  | renamed {key older : Text} (hkey : (key, older) ∈ olderKeys)
    {before after before' after' : Value.Entries} (hmoved : before' ++ after' = before ++ after)
    (hfree : ∀ e ∈ before ++ after, e.1 ≠ key ∧ e.1 ≠ older) (v : Value) :
    Rekeyed (.object (before ++ (key, v) :: after)) (.object (before' ++ (older, v) :: after'))
  | added {key : Text} (hkey : key ∉ entryKeys) (before after : Value.Entries) (v : Value) :
    Rekeyed (.object (before ++ after)) (.object (before ++ (key, v) :: after))
  | joined {key older : Text} (hkey : (key, older) ∈ olderKeys) {before after : Value.Entries}
    (hpresent : Value.find? key (before ++ after) ≠ none) (v : Value) :
    Rekeyed (.object (before ++ after)) (.object (before ++ (older, v) :: after))

/-- Two entries have the same values under the keys that are read, be it under an older name where
the newer one is missing. -/
structure ReadAlike (es fs : Value.Entries) : Prop where
  plain : ∀ name ∈ plainKeys, Value.find? name fs = Value.find? name es
  older : ∀ names ∈ olderKeys,
    (Value.find? names.1 fs).or (Value.find? names.2 fs) =
      (Value.find? names.1 es).or (Value.find? names.2 es)

/-- No key has two uses. -/
theorem olderKeys_ne_plainKeys :
    ∀ names ∈ olderKeys, ∀ name ∈ plainKeys, names.1 ≠ name ∧ names.2 ≠ name := by
  decide

theorem olderKeys_disjoint :
    ∀ names ∈ olderKeys, ∀ others ∈ olderKeys, names = others ∨
      (names.1 ≠ others.1 ∧ names.1 ≠ others.2) ∧ names.2 ≠ others.1 ∧ names.2 ≠ others.2 := by
  decide

theorem olderKeys_ne : ∀ names ∈ olderKeys, names.1 ≠ names.2 := by decide

/-- An older name for a key keeps its value. -/
theorem ReadAlike.renamed {key older : Text} (hkey : (key, older) ∈ olderKeys)
    {before after before' after' : Value.Entries} (hmoved : before' ++ after' = before ++ after)
    (hfree : ∀ e ∈ before ++ after, e.1 ≠ key ∧ e.1 ≠ older) (v : Value) :
    ReadAlike (before ++ (key, v) :: after) (before' ++ (older, v) :: after') := by
  have hother : ∀ {name}, key ≠ name → older ≠ name →
      Value.find? name (before' ++ (older, v) :: after') =
        Value.find? name (before ++ (key, v) :: after) := by
    intro name hname holder
    rw [Value.find?_insert_of_ne hname, Value.find?_insert_of_ne holder, hmoved]
  refine ⟨fun name hname => ?_, fun names hnames => ?_⟩
  · obtain ⟨hkeyName, holderName⟩ := olderKeys_ne_plainKeys _ hkey name hname
    exact hother hkeyName holderName
  · rcases olderKeys_disjoint _ hkey names hnames with rfl | ⟨⟨h₁, h₂⟩, h₃, h₄⟩
    · have hgone : Value.find? key (before' ++ (older, v) :: after') = none := by
        rw [Value.find?_insert_of_ne (olderKeys_ne _ hkey).symm, hmoved]
        exact Value.find?_eq_none fun e he => (hfree e he).1
      have hnewer : Value.find? key (before ++ (key, v) :: after) = some v :=
        Value.find?_insert_self fun e he => (hfree e (List.mem_append_left after he)).1
      have holder : Value.find? older (before' ++ (older, v) :: after') = some v :=
        Value.find?_insert_self fun e he => (hfree e (hmoved ▸ List.mem_append_left after' he)).2
      dsimp only
      rw [hgone, hnewer, holder]
      rfl
    · rw [hother h₁ h₃, hother h₂ h₄]

/-- A key that is not read makes no difference. -/
theorem ReadAlike.added {key : Text} (hkey : key ∉ entryKeys) (before after : Value.Entries)
    (v : Value) : ReadAlike (before ++ after) (before ++ (key, v) :: after) := by
  have hother : ∀ {name}, name ∈ entryKeys →
      Value.find? name (before ++ (key, v) :: after) = Value.find? name (before ++ after) := by
    intro name hname
    exact Value.find?_insert_of_ne fun h => hkey (h ▸ hname)
  refine ⟨fun name hname => hother ?_, fun names hnames => ?_⟩
  · exact List.mem_append_left _ (List.mem_append_left _ hname)
  · have hnewer : names.1 ∈ entryKeys :=
      List.mem_append_left _ (List.mem_append_right _ (List.mem_map_of_mem hnames))
    have holder : names.2 ∈ entryKeys := List.mem_append_right _ (List.mem_map_of_mem hnames)
    rw [hother hnewer, hother holder]

/-- Beside a key its older name makes no difference. -/
theorem ReadAlike.joined {key older : Text} (hkey : (key, older) ∈ olderKeys)
    {before after : Value.Entries} (hpresent : Value.find? key (before ++ after) ≠ none)
    (v : Value) : ReadAlike (before ++ after) (before ++ (older, v) :: after) := by
  refine ⟨fun name hname => ?_, fun names hnames => ?_⟩
  · exact Value.find?_insert_of_ne (olderKeys_ne_plainKeys _ hkey name hname).2
  · rcases olderKeys_disjoint _ hkey names hnames with rfl | ⟨-, h₁, h₂⟩
    · obtain ⟨w, hw⟩ := Option.ne_none_iff_exists'.mp hpresent
      dsimp only
      rw [Value.find?_insert_of_ne (olderKeys_ne _ hkey).symm, hw]
      rfl
    · rw [Value.find?_insert_of_ne h₁, Value.find?_insert_of_ne h₂]

/-! ## Reading -/

theorem entryDefinition_eq (entries : Value.Entries) :
    entryDefinition entries =
      match (Value.find? "definitionId" entries).or (Value.find? "filterId" entries) with
      | some v => .ok v
      | none => .error (.missingKey "filterId") := by
  unfold entryDefinition required
  cases Value.find? "definitionId" entries <;> rfl

/-- **Entries that are read alike make the same filter**, or fail alike. -/
theorem ReadAlike.ofParts_eq {es fs : Value.Entries} (h : ReadAlike es fs) :
    ofParts fs = ofParts es := by
  have hid := h.plain "id" (by decide)
  have hoperator := h.plain "operator" (by decide)
  have hvalue := h.plain "value" (by decide)
  have hdefinition := h.older ("definitionId", "filterId") (by decide)
  have hdirection := h.older ("sortDirection", "sortOrder") (by decide)
  unfold ofParts entryOperator entrySorting required
  simp only [entryDefinition_eq, Option.orElse_eq_or, hid, hoperator, hvalue, hdefinition,
    hdirection]

/-- A change of keys leaves the filter of an entry alone. -/
theorem Rekeyed.ofEntry_eq {v w : Value} (h : Rekeyed v w) : ofEntry w = ofEntry v := by
  cases h with
  | renamed hkey hmoved hfree v => exact (ReadAlike.renamed hkey hmoved hfree v).ofParts_eq
  | added hkey before after v => exact (ReadAlike.added hkey before after v).ofParts_eq
  | joined hkey hpresent v => exact (ReadAlike.joined hkey hpresent v).ofParts_eq

end Filter

namespace FilterSet

open Relation (EqvGen)

variable (c : Catalog) (rules : Rules)

/-! ## Lists of entries -/

theorem storedFilter_rekeyed {v w : Value} (h : EqvGen Filter.Rekeyed v w) :
    storedFilter c rules w = storedFilter c rules v := by
  induction h with
  | rel v w h =>
    have hread := h.ofEntry_eq
    cases h <;> rw [storedFilter, storedFilter, Filter.resolve, Filter.resolve, hread]
  | refl v => rfl
  | symm v w _ ih => exact ih.symm
  | trans u v w _ _ ih₁ ih₂ => exact ih₂.trans ih₁

theorem mapM_storedFilter_rekeyed {items items' : List Value}
    (h : List.Forall₂ (EqvGen Filter.Rekeyed) items items') :
    items'.mapM (storedFilter c rules) = items.mapM (storedFilter c rules) := by
  induction h with
  | nil => rfl
  | cons hitem _ ih => rw [List.mapM_cons, List.mapM_cons, storedFilter_rekeyed c rules hitem, ih]

/-- **Older and unknown keys make no difference.**  The set that is read from a list of stored
entries, or the failure to read it, stays the same if any of the entries undergo any number of
changes of keys, be it to older names or back. -/
theorem deserialize_rekeyed (tokens : Tokens) {blob blob' : Blob} {items items' : List Value}
    (hitems : storedItems blob = .ok items) (hitems' : storedItems blob' = .ok items')
    (h : List.Forall₂ (EqvGen Filter.Rekeyed) items items') :
    deserialize c rules tokens blob' = deserialize c rules tokens blob := by
  rw [deserialize_eq hitems, deserialize_eq hitems', storedFilters, storedFilters,
    mapM_storedFilter_rekeyed c rules h]

/-- Two entries, with a given text for the definition and the direction of the first, and a given
text at the end of the second. -/
def pairBlob (salary rest : Text) : Blob :=
  .text (("[\x7b\"id\":\"a\"," : Text) ++ salary ++
    ("\x7d,\x7b\"id\":\"b\",\"definitionId\":\"city\"" : Text) ++ rest ++ ("\x7d]" : Text))

/-- Older names in the first entry and two keys more in the second make the same set. -/
theorem deserialize_rekeyed_pair :
    deserialize Employees.catalog ⟨default, Settings.bundled.limits⟩ ⟨[], 0⟩
        (pairBlob "\"filterId\":\"salary\",\"sortOrder\":null" ",\"filterId\":5,\"x\":true") =
      deserialize Employees.catalog ⟨default, Settings.bundled.limits⟩ ⟨[], 0⟩
        (pairBlob "\"definitionId\":\"salary\",\"sortDirection\":null" []) ∧
    deserialize Employees.catalog ⟨default, Settings.bundled.limits⟩ ⟨[], 0⟩
        (pairBlob "\"definitionId\":\"salary\",\"sortDirection\":null" []) =
      .ok (ofFilters Employees.catalog ⟨[], 0⟩ (default : Date).isoText
        [⟨"a", "salary", .known .greaterThanOrEqual, .null, none⟩,
          ⟨"b", "city", .known .equals, .null, none⟩]) := by
  let id : Text × Value := ("id", .text "a")
  let definition : Text × Value := ("filterId", .text "salary")
  let newer : Value :=
    .object [id, ("definitionId", .text "salary"), ("sortDirection", .null)]
  let mixed : Value := .object [id, definition, ("sortDirection", .null)]
  let older : Value := .object [id, definition, ("sortOrder", .null)]
  have hdefinition : Filter.Rekeyed newer mixed :=
    .renamed (.head _) (rfl : [id] ++ [_] = [id] ++ [_]) (by decide) _
  have hdirection : Filter.Rekeyed mixed older :=
    .renamed (.tail _ (.head _)) (rfl : [id, definition] ++ [] = [id, definition] ++ [])
      (by decide) _
  have hrenamed : EqvGen Filter.Rekeyed newer older :=
    .trans _ _ _ (.rel _ _ hdefinition) (.rel _ _ hdirection)
  let city : Value.Entries := [("id", .text "b"), ("definitionId", .text "city")]
  let joined : Value.Entries := city.append [("filterId", .int 5)]
  let marked : Value.Entries := joined.append [("x", .bool true)]
  have hjoined : Filter.Rekeyed (.object city) (.object joined) :=
    .joined (.head _) (show Value.find? _ (city ++ []) ≠ none from nofun) _
  have hadded : Filter.Rekeyed (.object joined) (.object marked) :=
    .added (by decide) joined [] _
  have hmarked : EqvGen Filter.Rekeyed (.object city) (.object marked) :=
    .trans _ _ _ (.rel _ _ hjoined) (.rel _ _ hadded)
  have hitems : storedItems (pairBlob "\"definitionId\":\"salary\",\"sortDirection\":null" []) =
      .ok [newer, .object city] := rfl
  refine ⟨deserialize_rekeyed _ _ _ hitems rfl (.cons hrenamed (.cons hmarked .nil)), ?_⟩
  rw [deserialize_eq hitems]
  rfl

end FilterSet

end Winnow

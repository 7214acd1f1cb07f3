import Winnow.Catalog.Employees
import Winnow.Proofs.Query.Params
import Winnow.Proofs.Text.Splitting

/-!
# Keys that are ignored

A parameter makes no difference if its key names no part of a filter.  All other keys make one, also
those that are never written: with other digits, with zeros before them or with a line break at the
end they are read in the place of the written key for the same part.

* `Query.Ignored` : a key makes no difference to any list of parameters, wherever it stands;
* `Query.ofParams_splice` : parameters that are collected alike are read alike;
* `Query.ignored_iff` : **the ignored keys are those that name nothing**;
* `Query.ofParams_insert` : what a parameter with any key does to a list of parameters.
-/

namespace Winnow

open Outcome

namespace Query

variable {c : Catalog} {separator : Separator} {key numeral : Text} {part : Part}

/-- A key makes no difference to a list of parameters without it, wherever it is put. -/
def Ignored (c : Catalog) (separator : Separator) (key : Text) : Prop :=
  ∀ (before after : Value.Entries) (t : Text), (∀ e ∈ before ++ after, e.1 ≠ key) →
    ofParams c separator (before ++ (key, .text t) :: after) =
      ofParams c separator (before ++ after)

/-! ## Keys that name nothing -/

/-- Parameters that are collected alike are read alike, among whatever others they stand. -/
theorem ofParams_splice {entries entries' : Value.Entries}
    (h : ∀ parts, entries.foldlM collectEntry parts = entries'.foldlM collectEntry parts)
    (before after : Value.Entries) :
    ofParams c separator (before ++ (entries ++ after)) =
      ofParams c separator (before ++ (entries' ++ after)) := by
  simp only [ofParams_eq, collect_eq, List.foldlM_append, h]

theorem ignored_of_not_names (h : ∀ numeral part, ¬ Names key numeral part) :
    Ignored c separator key := by
  intro before after t _
  have hsame : ∀ parts, [(key, Value.text t)].foldlM collectEntry parts =
      List.foldlM collectEntry parts [] := by
    intro parts
    rw [List.foldlM_cons, collectEntry_of_not_names h]
    rfl
  exact ofParams_splice hsame before after

/-! ## Keys that name a part -/

/-- The parts of a filter whose field and operator are empty. -/
def Parts.blank (index : Int) : Parts := ⟨index, some (.text []), some (.text []), .none, .none⟩

/-- The parameters of an empty field and an empty operator, without one of the parts. -/
def blankParams (index : Nat) (part : Part) : Value.Entries :=
  ([.field, .operator].filter (· ≠ part)).map fun other => (paramKey index other, .text [])

/-- What is collected of these parameters. -/
def blankParts (index : Int) : Part → List Parts
  | .field => [(Parts.none index).set .operator (.text [])]
  | .operator => [(Parts.none index).set .field (.text [])]
  | .value | .sort => [.blank index]

/-- A text that makes a difference as a part of such a filter. -/
def probe : Part → Text
  | .value => "x"
  | .sort => "asc"
  | _ => []

theorem cut_probe_ne_nil {separator : Separator} {pieces : List Text}
    (h : separator.cut (probe .value) = .ok pieces) : pieces ≠ [] := by
  cases separator with
  | text t =>
    cases t with
    | nil => cases h
    | cons c cs =>
      cases h
      exact Text.splitOn_ne_nil (c :: cs) (probe .value)
  | blanks =>
    cases h
    decide
  | unusable => cases h

/-- The probe is read as another value than the empty text, if it is read. -/
theorem readValue_empty (separator : Separator) (kind : Option FieldKind) (v : Value) :
    ∃ w, readValue separator kind (.other v) [] = .ok w ∧
      readValue separator kind (.other v) (probe .value) ≠ .ok w := by
  cases kind with
  | none => exact ⟨.text [], rfl, nofun⟩
  | some kind =>
    cases kind with
    | text | select => exact ⟨.text [], rfl, nofun⟩
    | boolean | date => exact ⟨.null, rfl, nofun⟩
    | number =>
      have hinteger : isIntegerText (probe .value) = false := by decide
      have hfloat : Binary64.ofText? (probe .value) = none := by decide
      refine ⟨.null, rfl, ?_⟩
      show scalarValue (some .number) (probe .value) ≠ _
      unfold scalarValue
      rw [hinteger, hfloat]
      exact nofun
    | array =>
      refine ⟨.list [], rfl, fun h => ?_⟩
      obtain ⟨listed, -, h⟩ := of_bind_ok h
      cases listed with
      | false => cases h
      | true =>
        obtain ⟨pieces, hpieces, h⟩ := of_bind_ok h
        obtain ⟨items, hitems, h⟩ := of_bind_ok h
        cases h
        exact cut_probe_ne_nil hpieces (List.forall₂_nil_right_iff.mp (mapM_ok_iff.mp hitems))

/-- The filter of an empty field and an empty operator. -/
def blankFilter (value : Value) (direction : Option Direction) : QueryFilter :=
  ⟨[], .other (.text []), value, direction⟩

theorem ofPartsList_blank (c : Catalog) (separator : Separator) (index : Int)
    (value sort : Option Value) :
    ofPartsList c separator [⟨index, some (.text []), some (.text []), value, sort⟩] =
      (readValue separator ((c.byField? []).map Definition.kind) (.other (.text []))
        ((value.map paramText).getD [])).map fun w =>
          ofQueryFilters [blankFilter w (sort.bind fun v => Direction.ofText? (paramText v))] := by
  have hparts : ofParts c separator ⟨index, some (.text []), some (.text []), value, sort⟩ =
      (readValue separator ((c.byField? []).map Definition.kind) (.other (.text []))
        ((value.map paramText).getD [])).map fun w =>
          some (blankFilter w (sort.bind fun v => Direction.ofText? (paramText v))) := rfl
  unfold ofPartsList
  rw [List.mapM_cons, hparts]
  cases readValue separator _ _ _ <;> rfl

theorem setPart_singleton (index : Int) (part : Part) (v : Value) (q : Parts)
    (hq : q.index = index) : setPart index part v [q] = [q.set part v] := by
  rw [setPart, if_neg (by omega), if_pos hq.symm]

theorem collect_blankParams {index : Nat}
    (hindex : (Numeral.digits index).length ≤ Numeral.digitLimit) (part : Part) :
    (blankParams index part).foldlM collectEntry [] = .ok (blankParts index part) := by
  have hone : ∀ part v, [(paramKey index part, v)].foldlM collectEntry [] =
      .ok [(Parts.none index).set part v] := by
    intro part v
    rw [List.foldlM_cons, collectEntry_paramKey hindex]
    rfl
  have htwo : [(paramKey index .field, .text []), (paramKey index .operator, .text [])].foldlM
      collectEntry [] = .ok [.blank index] := by
    rw [List.foldlM_cons, collectEntry_paramKey hindex]
    show List.foldlM collectEntry [(Parts.none index).set .field (.text [])] _ = _
    rw [List.foldlM_cons, collectEntry_paramKey hindex, setPart_singleton index _ _ _ rfl]
    rfl
  cases part with
  | field => exact hone .operator (.text [])
  | operator => exact hone .field (.text [])
  | value | sort => exact htwo

/-- **A parameter makes a difference** to the filter that it is a part of. -/
theorem ofPartsList_probe_ne (c : Catalog) (separator : Separator) (index : Int) (part : Part) :
    ofPartsList c separator (setPart index part (.text (probe part)) (blankParts index part)) ≠
      ofPartsList c separator (blankParts index part) := by
  obtain ⟨w, hempty, hprobe⟩ :=
    readValue_empty separator ((c.byField? []).map Definition.kind) (.text [])
  have hblank : ofPartsList c separator [.blank index] =
      .ok (ofQueryFilters [blankFilter w .none]) := by
    rw [Parts.blank, ofPartsList_blank, Option.map_none, Option.getD_none, hempty]
    rfl
  intro h
  cases part with
  | field | operator =>
    rw [blankParts, setPart_singleton index _ _ _ rfl] at h
    have hnone : ofPartsList c separator [.blank index] = .ok (ofQueryFilters []) := h
    rw [hblank] at hnone
    cases hnone
  | value =>
    rw [blankParts, setPart_singleton index _ _ _ rfl, hblank, Parts.set, Parts.blank,
      ofPartsList_blank] at h
    change (readValue separator ((c.byField? []).map Definition.kind) (.other (.text []))
      (probe .value)).map _ = _ at h
    cases hread : readValue separator ((c.byField? []).map Definition.kind) (.other (.text []))
        (probe .value) with
    | error fault =>
      rw [hread] at h
      cases h
    | ok x =>
      rw [hread] at h
      cases h
      exact hprobe hread
  | sort =>
    rw [blankParts, setPart_singleton index _ _ _ rfl, hblank, Parts.set, Parts.blank,
      ofPartsList_blank, Option.map_none, Option.getD_none, hempty] at h
    cases h

theorem ne_of_mem_blankParams (h : Names key numeral part) {index : Nat} :
    ∀ e ∈ blankParams index part, e.1 ≠ key := by
  rintro e he rfl
  obtain ⟨other, hother, rfl⟩ := List.mem_map.mp he
  have hpart : part = other := (h.unique (names_paramKey index other)).2
  simp [hpart] at hother

theorem not_ignored_of_names (h : Names key numeral part) : ¬ Ignored c separator key := by
  intro hignored
  by_cases hlong : Numeral.digitLimit < numeral.length
  · have hsame := hignored [] [] [] nofun
    simp only [List.nil_append, ofParams_eq, collect_eq, List.foldlM_cons, collectEntry_of_names h,
      if_pos hlong] at hsame
    cases hsame
  · let index := indexOf numeral
    have hblank := collect_blankParams (h.length_digits.trans (Nat.not_lt.mp hlong)) part
    have hprobe : (blankParams index part ++ [(key, Value.text (probe part))]).foldlM collectEntry
        [] = .ok (setPart index part (.text (probe part)) (blankParts index part)) := by
      rw [List.foldlM_append, hblank]
      show List.foldlM collectEntry (blankParts index part) [(key, .text (probe part))] = _
      rw [List.foldlM_cons, collectEntry_of_names h, if_neg hlong]
      rfl
    have hsame := hignored (blankParams index part) [] (probe part) (by
      rw [List.append_nil]
      exact ne_of_mem_blankParams h)
    rw [List.append_nil, ofParams_eq, ofParams_eq, collect_eq, collect_eq, hprobe, hblank] at hsame
    exact ofPartsList_probe_ne c separator index part hsame

/-- **A key is ignored exactly if it names nothing.** -/
theorem ignored_iff (c : Catalog) (separator : Separator) :
    Ignored c separator key ↔ ∀ numeral part, ¬ Names key numeral part :=
  ⟨fun h _ _ hnames => not_ignored_of_names hnames h, ignored_of_not_names⟩

/-! ## Any key -/

/-- **What a parameter with any key does** to a list of parameters.  A key that names nothing, and
no other one, is ignored.  A key that names a part is read in the place of the written key for that
part, whatever digits its numeral has, and makes the parameters unreadable if it is too long. -/
theorem ofParams_insert (c : Catalog) (separator : Separator) (key : Text) :
    (Ignored c separator key ↔ ∀ numeral part, ¬ Names key numeral part) ∧
    ∀ numeral part, Names key numeral part → ∀ (before after : Value.Entries) (v : Value),
      (numeral.length ≤ Numeral.digitLimit →
        ofParams c separator (before ++ (key, v) :: after) =
          ofParams c separator (before ++ (paramKey (indexOf numeral) part, v) :: after)) ∧
      (Numeral.digitLimit < numeral.length →
        ∃ fault, ofParams c separator (before ++ (key, v) :: after) = .error fault) := by
  refine ⟨ignored_iff c separator, fun numeral part hnames before after v => ⟨?_, ?_⟩⟩
  · intro hshort
    have hsame : ∀ parts, [(key, v)].foldlM collectEntry parts =
        [(paramKey (indexOf numeral) part, v)].foldlM collectEntry parts := by
      intro parts
      rw [List.foldlM_cons, List.foldlM_cons, collectEntry_of_names hnames,
        if_neg (Nat.not_lt.mpr hshort), collectEntry_paramKey (hnames.length_digits.trans hshort)]
    exact ofParams_splice hsame before after
  · intro hlong
    rw [ofParams_eq, collect_eq, List.foldlM_append]
    cases before.foldlM collectEntry [] with
    | error fault => exact ⟨fault, rfl⟩
    | ok parts =>
      refine ⟨.digitLimit (some numeral.length), ?_⟩
      show (List.foldlM collectEntry parts ((key, v) :: after) >>= ofPartsList c separator) = _
      rw [List.foldlM_cons, collectEntry_of_names hnames, if_pos hlong]
      rfl

/-- A filter for a city. -/
def cityParams : Value.Entries :=
  [("filter_0_field", .text "city"), ("filter_0_operator", .text "equals"),
    ("filter_0_value", .text "Boston")]

/-- **Not every key that is never written is ignored**: one with a zero more replaces the value of a
filter. -/
theorem not_ignored_of_ne_paramKey :
    ¬ ∀ key, (∀ index part, key ≠ paramKey index part) →
      Ignored Employees.catalog (.text ",") key := by
  intro h
  have hnames : Names "filter_00_value" "00" .value :=
    ⟨by decide, by decide, [], .inl rfl, by decide⟩
  have hnever : ∀ index part, ("filter_00_value" : Text) ≠ paramKey index part := by
    intro index part hsame
    obtain ⟨hdigits, -⟩ := (hsame ▸ hnames).unique (names_paramKey index part)
    have hread : Numeral.toInt "00" = .ok index := by
      rw [hdigits]
      exact Numeral.toInt_digits (hdigits ▸ by decide)
    cases hread
    exact absurd hdigits (by decide)
  have hsame := h "filter_00_value" hnever cityParams [] "Paris" (by decide)
  have hread : ofParams Employees.catalog (.text ",") cityParams = .ok
      (ofQueryFilters [⟨"city", .known .equals, .text "Boston", none⟩]) := rfl
  have hreplaced : ofParams Employees.catalog (.text ",")
      (cityParams ++ ([("filter_00_value", .text "Paris")] : Value.Entries)) = .ok
      (ofQueryFilters [⟨"city", .known .equals, .text "Paris", none⟩]) := rfl
  rw [hreplaced, List.append_nil, hread] at hsame
  cases hsame

end Query

end Winnow

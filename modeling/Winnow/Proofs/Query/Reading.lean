import Winnow.Catalog.Employees
import Winnow.Proofs.Query.Collecting
import Winnow.Proofs.Query.Numbers

/-!
# Any texts as parameters

A list of parameters with any keys and any texts is read as a query, filter by filter, unless an
integer in it has too many digits: the index of a filter, or a number of a field of numbers.

* `Query.HasLongNumber` : a number of a filter is an integer that is too long;
* `Query.ReadFilter` : a filter of a query, part by part;
* `Query.exists_ofParams_iff` : **parameters are read** exactly if no integer is too long;
* `Query.ofParams_texts` : the query that they are read as.
-/

namespace Winnow

open Outcome

namespace Query

variable {c : Catalog} {separator : Text} {entries : Value.Entries} {index : Int}

/-- The text of a parameter that may be missing. -/
def textOf (v : Option Value) : Text := (v.map paramText).getD []

/-- All values of parameters are texts. -/
def AreTexts (entries : Value.Entries) : Prop := ∀ e ∈ entries, ∃ t, e.2 = .text t

/-- The field and the operator of a filter are there. -/
def isComplete (entries : Value.Entries) (index : Int) : Bool :=
  (latest entries index .field).isSome && (latest entries index .operator).isSome

/-- A filter has a field of numbers, and an integer with too many digits among its numbers. -/
def HasLongNumber (c : Catalog) (separator : Text) (entries : Value.Entries) (index : Int) : Prop :=
  ∃ field operator, latest entries index .field = some (.text field) ∧
    latest entries index .operator = some (.text operator) ∧
    (c.byField? field).map Definition.kind = some .number ∧
    ∃ t ∈ valueTexts separator (some .number) (.ofValue (.text operator))
      (textOf (latest entries index .value)), IsLongInteger t

/-- The filter that is read from the last parameters for its parts. -/
structure ReadFilter (c : Catalog) (separator : Text) (entries : Value.Entries) (index : Int)
    (f : QueryFilter) : Prop where
  field : latest entries index .field = some (.text f.field)
  operator : ∃ t, latest entries index .operator = some (.text t) ∧ f.operator = .ofValue (.text t)
  direction : f.direction =
    (latest entries index .sort).bind fun v => Direction.ofText? (paramText v)
  value : readValue (.text separator) ((c.byField? f.field).map Definition.kind) f.operator
    (textOf (latest entries index .value)) = .ok f.value
  numbers : (c.byField? f.field).map Definition.kind = some .number →
    ReadsNumbers separator f.operator (textOf (latest entries index .value)) f.value

/-! ## One filter -/

theorem text_of_latest (htexts : AreTexts entries) {part : Part} {v : Value}
    (h : latest entries index part = some v) : ∃ t, v = .text t := by
  obtain ⟨e, he, rfl⟩ := Option.map_eq_some_iff.mp h
  exact htexts e (List.mem_reverse.mp (List.mem_of_find?_eq_some he))

/-- What a filter with a field and an operator is read as. -/
theorem ofParts_eq_of_latest {field operator : Text}
    (hfield : latest entries index .field = some (.text field))
    (hoperator : latest entries index .operator = some (.text operator)) :
    ofParts c (.text separator) (gathered entries index) =
      (readValue (.text separator) ((c.byField? field).map Definition.kind)
        (.ofValue (.text operator)) (textOf (latest entries index .value))).map fun v =>
          some ⟨field, .ofValue (.text operator), v,
            (latest entries index .sort).bind fun v => Direction.ofText? (paramText v)⟩ := by
  unfold ofParts gathered
  dsimp only
  rw [hfield, hoperator]
  rfl

/-- A filter that is complete has texts for its field and its operator. -/
theorem exists_texts_of_isComplete (htexts : AreTexts entries)
    (h : isComplete entries index = true) :
    ∃ field operator, latest entries index .field = some (.text field) ∧
      latest entries index .operator = some (.text operator) := by
  obtain ⟨hfield, hoperator⟩ := Bool.and_eq_true_iff.mp h
  obtain ⟨v, hfield⟩ := Option.isSome_iff_exists.mp hfield
  obtain ⟨w, hoperator⟩ := Option.isSome_iff_exists.mp hoperator
  obtain ⟨field, rfl⟩ := text_of_latest htexts hfield
  obtain ⟨operator, rfl⟩ := text_of_latest htexts hoperator
  exact ⟨field, operator, hfield, hoperator⟩

/-- **One filter is read** exactly if none of its numbers is too long. -/
theorem ofParts_succeeds_iff (hseparator : separator ≠ []) (htexts : AreTexts entries) :
    (∃ f, ofParts c (.text separator) (gathered entries index) = .ok f) ↔
      ¬ HasLongNumber c separator entries index := by
  cases hcomplete : isComplete entries index with
  | false =>
    refine iff_of_true ⟨none, ofParts_of_missing hcomplete⟩ ?_
    rintro ⟨field, operator, hfield, hoperator, -⟩
    rw [isComplete, hfield, hoperator] at hcomplete
    cases hcomplete
  | true =>
    obtain ⟨field, operator, hfield, hoperator⟩ := exists_texts_of_isComplete htexts hcomplete
    have hread : (∃ f, ofParts c (.text separator) (gathered entries index) = .ok f) ↔
        ∃ v, readValue (.text separator) ((c.byField? field).map Definition.kind)
          (.ofValue (.text operator)) (textOf (latest entries index .value)) = .ok v := by
      rw [ofParts_eq_of_latest hfield hoperator]
      cases readValue (.text separator) ((c.byField? field).map Definition.kind)
          (.ofValue (.text operator)) (textOf (latest entries index .value)) with
      | error fault => exact iff_of_false nofun nofun
      | ok v => exact iff_of_true ⟨_, rfl⟩ ⟨v, rfl⟩
    rw [hread, readValue_succeeds_iff hseparator]
    constructor
    · rintro h ⟨field', operator', hfield', hoperator', hkind, t, ht, hlong⟩
      rw [hfield, Option.some.injEq, Value.text.injEq] at hfield'
      rw [hoperator, Option.some.injEq, Value.text.injEq] at hoperator'
      subst hfield' hoperator'
      rw [hkind] at h
      exact h t ht ⟨rfl, hlong⟩
    · rintro h t ht ⟨hkind, hlong⟩
      rw [hkind] at ht
      exact h ⟨field, operator, hfield, hoperator, hkind, t, ht, hlong⟩

/-- What is read of a filter: nothing where its field or its operator is missing. -/
theorem readFilter_of_ofParts (hseparator : separator ≠ []) (htexts : AreTexts entries)
    {f : Option QueryFilter}
    (h : ofParts c (.text separator) (gathered entries index) = .ok f) :
    (isComplete entries index = false ∧ f = none) ∨
      ∃ g, isComplete entries index = true ∧ f = some g ∧
        ReadFilter c separator entries index g := by
  cases hcomplete : isComplete entries index with
  | false =>
    rw [ofParts_of_missing (p := gathered entries index) hcomplete] at h
    cases h
    exact .inl ⟨rfl, rfl⟩
  | true =>
    obtain ⟨field, operator, hfield, hoperator⟩ := exists_texts_of_isComplete htexts hcomplete
    rw [ofParts_eq_of_latest hfield hoperator] at h
    cases hvalue : readValue (.text separator) ((c.byField? field).map Definition.kind)
        (.ofValue (.text operator)) (textOf (latest entries index .value)) with
    | error fault =>
      rw [hvalue] at h
      cases h
    | ok v =>
      rw [hvalue] at h
      cases h
      refine .inr ⟨_, rfl, rfl, hfield, ⟨operator, hoperator, rfl⟩, rfl, hvalue, fun hkind => ?_⟩
      rw [hkind] at hvalue
      exact readsNumbers_of_readValue hseparator hvalue

/-! ## All filters -/

/-- **Parameters are read** exactly if no integer in them is too long. -/
theorem exists_ofParams_iff (hseparator : separator ≠ []) (htexts : AreTexts entries) :
    (∃ q, ofParams c (.text separator) entries = .ok q) ↔
      (∀ e ∈ entries, ¬ HasLongIndex e.1) ∧
        ∀ index, ¬ HasLongNumber c separator entries index := by
  rw [ofParams_eq, ← collect_succeeds_iff]
  cases hcollect : collect entries with
  | error fault => exact iff_of_false nofun fun h => nomatch h.1
  | ok parts =>
    obtain ⟨indices, -, hmem, rfl⟩ := collected_of_collect hcollect
    rw [and_iff_right ⟨_, rfl⟩]
    show (∃ q, ofPartsList c (.text separator) _ = .ok q) ↔ _
    rw [ofPartsList_succeeds_iff]
    simp only [List.forall_mem_map, ofParts_succeeds_iff hseparator htexts]
    refine ⟨fun h index hlong => ?_, fun h index _ => h index⟩
    have hnamed : ∃ e ∈ entries, ∃ part, place? e.1 = some (index, part) := by
      obtain ⟨field, -, hfield, -⟩ := hlong
      exact named_of_latest hfield
    exact h index ((hmem index).mpr hnamed) hlong

/-- **Any texts are read as a query**, unless an integer in them is too long.  The filters of the
query are those whose field and operator are there, in the order of their indices, each made from
the last parameters for its parts; and a text that is no number stays a text where numbers are
expected. -/
theorem ofParams_texts (c : Catalog) {separator : Text} (hseparator : separator ≠ [])
    {entries : Value.Entries} (htexts : AreTexts entries) :
    ((∃ q, ofParams c (.text separator) entries = .ok q) ↔
      (∀ e ∈ entries, ¬ HasLongIndex e.1) ∧
        ∀ index, ¬ HasLongNumber c separator entries index) ∧
    ∀ q, ofParams c (.text separator) entries = .ok q →
      ∃ indices : List Int, indices.Pairwise (· < ·) ∧
        (∀ index, index ∈ indices ↔ isComplete entries index = true) ∧
        List.Forall₂ (ReadFilter c separator entries) indices q.filters ∧
        q.sort = q.filters.filterMap QueryFilter.sortKey? := by
  refine ⟨exists_ofParams_iff hseparator htexts, fun q hq => ?_⟩
  rw [ofParams_eq] at hq
  obtain ⟨parts, hparts, hq⟩ := of_bind_ok hq
  obtain ⟨indices, hsorted, hmem, rfl⟩ := collected_of_collect hparts
  obtain ⟨fs, hfs, hq⟩ := of_bind_ok hq
  cases hq
  have hread : List.Forall₂ (ReadFilter c separator entries) (indices.filter (isComplete entries))
      (fs.filterMap id) := by
    refine forall₂_filterMap (fun index f h => ?_)
      (List.forall₂_map_left_iff.mp (mapM_ok_iff.mp hfs))
    exact readFilter_of_ofParts hseparator htexts h
  refine ⟨_, hsorted.filter _, fun index => ?_, hread, rfl⟩
  rw [List.mem_filter, and_iff_right_iff_imp, hmem]
  intro hcomplete
  obtain ⟨field, -, hfield, -⟩ := exists_texts_of_isComplete htexts hcomplete
  exact named_of_latest hfield

/-- The parameters of a filter for a salary. -/
def salaryParams (value : Text) : Value.Entries :=
  [("filter_0_field", .text "salary"), ("filter_0_operator", .text "equals"),
    ("filter_0_value", .text value)]

theorem areTexts_salaryParams (value : Text) : AreTexts (salaryParams value) := by
  intro e he
  simp only [salaryParams, List.mem_cons, List.not_mem_nil, or_false] at he
  rcases he with rfl | rfl | rfl <;> exact ⟨_, rfl⟩

/-- A salary that is no number is read as a text, in the only filter of the query. -/
theorem ofParams_texts_salary :
    ofParams Employees.catalog (.text ",") (salaryParams "12x") =
      .ok (ofQueryFilters [⟨"salary", .known .equals, .text "12x", none⟩]) ∧
    ReadFilter Employees.catalog "," (salaryParams "12x") 0
      ⟨"salary", .known .equals, .text "12x", none⟩ := by
  have hq : ofParams Employees.catalog (.text ",") (salaryParams "12x") =
      .ok (ofQueryFilters [⟨"salary", .known .equals, .text "12x", none⟩]) := rfl
  obtain ⟨indices, -, hmem, hread, -⟩ :=
    (ofParams_texts Employees.catalog (List.cons_ne_nil _ _) (areTexts_salaryParams "12x")).2 _ hq
  cases hread with
  | @cons index f indices fs hfilter hrest =>
    cases hrest
    have hzero : (0 : Int) ∈ [index] := (hmem 0).mpr rfl
    rw [List.mem_singleton.mp hzero]
    exact ⟨hq, hfilter⟩

theorem isLongInteger_replicate {n : Nat} (hn : Numeral.digitLimit < n) :
    IsLongInteger (List.replicate n (.scalar '1')) := by
  have hne : List.replicate n (CodePoint.scalar '1') ≠ [] := by
    rw [ne_eq, List.replicate_eq_nil_iff]
    omega
  have hdecimals : ∀ c ∈ List.replicate n (CodePoint.scalar '1'), c.isDecimal = true := by
    intro c hc
    rw [List.eq_of_mem_replicate hc]
    decide
  refine ⟨_, ⟨hne, hdecimals, [], [], .inl rfl, .inl rfl, ?_⟩, ?_⟩
  · rw [List.nil_append, List.append_nil]
  · rwa [List.length_replicate]

theorem hasLongNumber_salaryParams {value : Text} (h : IsLongInteger value) :
    HasLongNumber Employees.catalog "," (salaryParams value) 0 :=
  ⟨"salary", "equals", rfl, rfl, rfl, value, List.mem_singleton.mpr rfl, h⟩

/-- **Not all texts are read**: a salary may have too many digits. -/
theorem not_ofParams_texts :
    ¬ ∀ entries, AreTexts entries →
      ∃ q, ofParams Employees.catalog (.text ",") entries = .ok q := by
  intro h
  have hlong : IsLongInteger (List.replicate 4301 (.scalar '1')) :=
    isLongInteger_replicate (by decide)
  have htexts := areTexts_salaryParams (List.replicate 4301 (.scalar '1'))
  have hread := (exists_ofParams_iff (List.cons_ne_nil _ _) htexts).mp (h _ htexts)
  exact hread.2 0 (hasLongNumber_salaryParams hlong)

end Query

end Winnow

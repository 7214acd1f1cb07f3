import Mathlib.Data.List.Nodup
import Winnow.Catalog.Employees
import Winnow.Proofs.Query.Params
import Winnow.Proofs.Query.Values

/-!
# The round trip of flat parameters

A query that is sent as flat parameters is read back.  Each filter comes back by itself, so the
query does exactly if each of its filters does.

* `Query.ofFilters_named` : the query of filters whose directions have words of the vocabulary;
* `Catalog.byField?_field` : the owner of a field, where no two definitions share one;
* `Query.reread_filters` : a query comes back exactly if each of its filters does;
* `Filter.IsPreserved` : the filters that come back;
* `Query.ofParams_paramsOfFilters` : a query of such filters comes back.
-/

namespace Winnow

open Outcome

/-! ## Filters in a query -/

namespace Filter

/-- A filter with its definition as it stands in a query. -/
def stated (f : Filter × Definition) : QueryFilter :=
  ⟨f.2.field, f.1.operator, f.1.value, f.1.direction?⟩

theorem SortingNamed.query_direction {f : Filter} (h : f.SortingNamed) :
    Query.direction f.sorting = .ok f.direction? := by
  rcases h.cases with ⟨hnone, hdirection⟩ | ⟨s, d, hsome, hword, hs, hdirection⟩
  · rw [hnone, hdirection]
    rfl
  · rw [hsome, hdirection]
    unfold Query.direction
    split
    · rename_i h
      cases h
    · rename_i h
      cases h
      have hempty : d.word ≠ [] := by cases d <;> decide
      exact absurd hword.symm hempty
    · rename_i h
      cases h
      rw [hs]
      rfl

end Filter

namespace Query

variable {c : Catalog} {filters : List Filter}

/-- The query of filters whose directions have words of the vocabulary. -/
theorem ofFilters_named (h : ∀ f ∈ c.bind filters, f.1.SortingNamed) :
    ofFilters c filters = .ok (ofQueryFilters ((c.bind filters).map Filter.stated)) := by
  have hproject : (c.bind filters).mapM project = .ok ((c.bind filters).map Filter.stated) := by
    refine mapM_eq_map fun f hf => ?_
    unfold project
    rw [(h f hf).query_direction]
    rfl
  unfold ofFilters
  rw [hproject]
  rfl

theorem length_bind_le (c : Catalog) (filters : List Filter) :
    (c.bind filters).length ≤ filters.length :=
  List.length_filterMap_le _ _

end Query

/-- The field of a definition has an owner, which reads it too. -/
theorem Catalog.byField?_of_mem {c : Catalog} {d : Definition} (hd : d ∈ c.definitions) :
    ∃ e ∈ c.definitions, c.byField? d.field = some e ∧ e.field = d.field := by
  unfold Catalog.byField?
  cases hfind : c.definitions.find? fun e => e.field == d.field with
  | none =>
    have hnone := List.find?_eq_none.mp hfind d hd
    simp at hnone
  | some e =>
    have hfield : e.field = d.field := by simpa using List.find?_some hfind
    exact ⟨e, List.mem_of_find?_eq_some hfind, rfl, hfield⟩

/-- A field has the definition that reads it as its owner, if no two definitions share one. -/
theorem Catalog.byField?_field {c : Catalog} (h : (c.definitions.map Definition.field).Nodup)
    {d : Definition} (hd : d ∈ c.definitions) : c.byField? d.field = some d := by
  obtain ⟨e, hmem, howner, hfield⟩ := byField?_of_mem hd
  rw [howner, List.inj_on_of_nodup_map h hmem hd hfield]

namespace Query

variable {c : Catalog} {separator : Separator}

/-! ## Queries filter by filter -/

/-- Filters with the fields and directions of others have their sort keys. -/
theorem sort_ofQueryFilters {fs gs : List QueryFilter}
    (h : List.Forall₂ (fun f g => QueryFilter.reread c separator f = .ok g) fs gs) :
    (ofQueryFilters gs).sort = (ofQueryFilters fs).sort := by
  unfold ofQueryFilters
  dsimp only
  induction h with
  | nil => rfl
  | @cons f g fs gs hg _ ih =>
    obtain ⟨text, value, _, _, _, rfl⟩ := reread_ok hg
    rw [List.filterMap_cons, List.filterMap_cons, ih]
    rfl

/-- **A query comes back exactly if each of its filters does**, where each of them is read. -/
theorem reread_filters {preserved : Filter × Definition → Prop} {fs : List (Filter × Definition)}
    (h : ∀ f ∈ fs, ∃ g, (Filter.stated f).reread c separator = .ok g ∧
      (g.equals (Filter.stated f) = true ↔ preserved f)) :
    ∃ gs, (fs.map Filter.stated).mapM (QueryFilter.reread c separator) = .ok gs ∧
      ((ofQueryFilters gs).equals (ofQueryFilters (fs.map Filter.stated)) = true ↔
        ∀ f ∈ fs, preserved f) := by
  have hlists : ∃ gs, (fs.map Filter.stated).mapM (QueryFilter.reread c separator) = .ok gs ∧
      (QueryFilter.equalLists gs (fs.map Filter.stated) = true ↔ ∀ f ∈ fs, preserved f) := by
    induction fs with
    | nil => exact ⟨[], rfl, fun _ => List.forall_mem_nil preserved, fun _ => rfl⟩
    | cons f fs ih =>
      obtain ⟨g, hg, hequal⟩ := h f List.mem_cons_self
      obtain ⟨gs, hgs, hequals⟩ := ih fun e he => h e (List.mem_cons_of_mem f he)
      refine ⟨g :: gs, ?_, ?_⟩
      · rw [List.map_cons, List.mapM_cons, hg, hgs]
        rfl
      · rw [List.map_cons, QueryFilter.equalLists, Bool.and_eq_true, hequal, hequals,
          List.forall_mem_cons]
  obtain ⟨gs, hgs, hequals⟩ := hlists
  refine ⟨gs, hgs, ?_⟩
  unfold Query.equals
  rw [sort_ofQueryFilters (mapM_ok_iff.mp hgs), beq_self_eq_true, Bool.and_true]
  exact hequals

/-- The operator and the direction of a filter always come back, if its operator is a word of the
vocabulary and no two definitions share a field. -/
theorem reread_equals_iff (hfields : (c.definitions.map Definition.field).Nodup)
    {f : Filter × Definition} (hf : f.2 ∈ c.definitions) {o : Operator}
    (ho : f.1.operator.value = .text o.word) {text : Text} {value : Value}
    (htext : valueText separator f.1.value = .ok text)
    (hvalue : readValue separator (some f.2.kind) (.known o) text = .ok value) :
    ∃ g, (Filter.stated f).reread c separator = .ok g ∧
      (g.equals (Filter.stated f) = true ↔ value.equals f.1.value = true) := by
  have hchoice : OperatorChoice.ofValue (.text o.word) = .known o := by
    unfold OperatorChoice.ofValue
    dsimp only
    rw [Operator.ofText?_word]
  refine ⟨⟨f.2.field, .known o, value, f.1.direction?⟩, ?_, ?_⟩
  · unfold QueryFilter.reread Filter.stated
    dsimp only
    rw [ho, hchoice, htext, Catalog.byField?_field hfields hf]
    show (readValue separator (some f.2.kind) (.known o) text >>= _) = _
    rw [hvalue]
    rfl
  · have hoperator : (OperatorChoice.known o).value.equals f.1.operator.value = true := by
      rw [ho]
      exact (Value.IsItem.text o.word).equals_self
    unfold QueryFilter.equals Filter.stated
    dsimp only
    rw [hoperator, beq_self_eq_true, beq_self_eq_true, Bool.and_true, Bool.and_true, Bool.true_and]

/-- **A query comes back as parameters exactly if each of its filters does**, where each of them is
read. -/
theorem ofParams_paramsOfFilters_iff {preserved : Filter × Definition → Prop}
    {filters : List Filter} (hnamed : ∀ f ∈ c.bind filters, f.1.SortingNamed)
    (hlength : filters.length ≤ 10 ^ Numeral.digitLimit)
    (h : ∀ f ∈ c.bind filters, ∃ g, (Filter.stated f).reread c separator = .ok g ∧
      (g.equals (Filter.stated f) = true ↔ preserved f)) :
    ∃ q entries p, ofFilters c filters = .ok q ∧
      paramsOfFilters c separator filters = .ok entries ∧ ofParams c separator entries = .ok p ∧
      (p.equals q = true ↔ ∀ f ∈ c.bind filters, preserved f) := by
  have hquery := ofFilters_named hnamed
  obtain ⟨gs, hgs, hequals⟩ := reread_filters h
  have hcount : (ofQueryFilters ((c.bind filters).map Filter.stated)).filters.length ≤
      10 ^ Numeral.digitLimit := by
    show ((c.bind filters).map Filter.stated).length ≤ _
    rw [List.length_map]
    exact (length_bind_le c filters).trans hlength
  obtain ⟨entries, hentries, hread⟩ := ofParams_params hgs hcount
  refine ⟨_, entries, _, hquery, ?_, hread, hequals⟩
  unfold paramsOfFilters
  rw [hquery]
  exact hentries

end Query

/-! ## Filters that are preserved -/

/-- Flat parameters preserve a filter: its operator and its direction have words of the vocabulary,
and its value is one that the kind of its definition preserves under the operator. -/
structure Filter.IsPreserved (separator : CodePoint) (d : Definition) (f : Filter) : Prop where
  value : ∃ o : Operator, f.operator.value = .text o.word ∧ d.kind.Holds separator o f.value
  sorting : f.SortingNamed

namespace Query

/-- **A query of filters that are preserved comes back from its flat parameters**, for every catalog
in which no two definitions share a field and every separator of one code point. -/
theorem ofParams_paramsOfFilters (c : Catalog)
    (hfields : (c.definitions.map Definition.field).Nodup) (separator : CodePoint)
    (filters : List Filter) (hlength : filters.length ≤ 10 ^ Numeral.digitLimit)
    (hpreserved : ∀ f ∈ c.bind filters, f.1.IsPreserved separator f.2) :
    ∃ q entries p, ofFilters c filters = .ok q ∧
      paramsOfFilters c (.text [separator]) filters = .ok entries ∧
      ofParams c (.text [separator]) entries = .ok p ∧ p.equals q = true := by
  have hreread : ∀ f ∈ c.bind filters,
      ∃ g, (Filter.stated f).reread c (.text [separator]) = .ok g ∧
        (g.equals (Filter.stated f) = true ↔ True) := by
    intro f hf
    obtain ⟨o, ho, hvalue⟩ := (hpreserved f hf).value
    obtain ⟨text, value, htext, hread, hequal⟩ := readValue_valueText hvalue
    obtain ⟨g, hg, hequals⟩ :=
      reread_equals_iff hfields (Catalog.mem_of_mem_bind hf).2.2 ho htext hread
    exact ⟨g, hg, hequals.trans (iff_true_intro hequal)⟩
  obtain ⟨q, entries, p, hq, hentries, hp, hequals⟩ :=
    @ofParams_paramsOfFilters_iff c (.text [separator]) (fun _ => True) filters
      (fun f hf => (hpreserved f hf).sorting) hlength hreread
  exact ⟨q, entries, p, hq, hentries, hp, hequals.mpr fun _ _ => trivial⟩

/-- A range of salaries, two skills, and a city by which the records are sorted. -/
theorem ofParams_paramsOfFilters_employees :
    let filters : List Filter :=
      [⟨"a", "salary", .known .between, .list [.int 5, .int 10], none⟩,
        ⟨"b", "skills", .known .contains, .list [.text "go", .text "python"], none⟩,
        ⟨"c", "city", .known .equals, .text [], some (.written "asc")⟩]
    ∃ q entries p, ofFilters Employees.catalog filters = .ok q ∧
      paramsOfFilters Employees.catalog (.text [.scalar ',']) filters = .ok entries ∧
      ofParams Employees.catalog (.text [.scalar ',']) entries = .ok p ∧ p.equals q = true := by
  intro filters
  have hlength : filters.length ≤ 10 ^ Numeral.digitLimit :=
    (by decide : 3 ≤ 10 ^ 1).trans (Nat.pow_le_pow_right (by decide) (by decide))
  refine ofParams_paramsOfFilters Employees.catalog (by decide) (.scalar ',') filters hlength ?_
  rintro ⟨f, d⟩ hf
  obtain ⟨hmem, hfind, _⟩ := Catalog.mem_of_mem_bind hf
  have hkind : (Employees.catalog.find? f.definitionId).map Definition.kind = some d.kind :=
    congrArg (Option.map Definition.kind) hfind
  simp only [filters, List.mem_cons, List.not_mem_nil, or_false] at hmem
  rcases hmem with rfl | rfl | rfl
  · have hnumber : some FieldKind.number = some d.kind := by rw [← hkind]; decide +kernel
    refine ⟨⟨.between, rfl, ?_⟩, .inl rfl⟩
    rw [← Option.some.inj hnumber]
    refine ⟨_, rfl, nofun, fun x hx => ?_⟩
    rcases List.mem_pair.mp hx with rfl | rfl
    · have hdigits : (Numeral.digits 5).length ≤ Numeral.digitLimit := by decide
      exact ⟨hdigits, fun t ht => by cases ht; decide⟩
    · have hdigits : (Numeral.digits 10).length ≤ Numeral.digitLimit := by decide
      exact ⟨hdigits, fun t ht => by cases ht; decide⟩
  · have harray : some FieldKind.array = some d.kind := by rw [← hkind]; decide +kernel
    refine ⟨⟨.contains, rfl, ?_⟩, .inl rfl⟩
    rw [← Option.some.inj harray]
    refine .inr (.inl ⟨_, rfl, by decide, fun x hx => ?_⟩)
    rcases List.mem_pair.mp hx with rfl | rfl
    · exact ⟨_, rfl, by decide⟩
    · exact ⟨_, rfl, by decide⟩
  · have htext : some FieldKind.text = some d.kind := by rw [← hkind]; decide +kernel
    refine ⟨⟨.equals, rfl, ?_⟩, .inr ⟨.ascending, rfl⟩⟩
    rw [← Option.some.inj htext]
    exact trivial

end Query

end Winnow

import Winnow.Proofs.FilterSet.Invariant
import Winnow.Proofs.Query.RoundTrip

/-!
# The round trip of sets that are edited

Operators and values are edited one by one, so a single value may stand under an operator that takes
a list.  Its text is then read as that of a list, and so is the text of an array that is empty or
holds the separator.  Every other single value comes back.

* `Value.IsScalar` : the single values, with integers within the digit limit;
* `Filter.HasShape` : the operator of a filter is known, and a single value is one of its kind;
* `FilterSet.run_shaped` : so it is for the filters of a set that is edited, under whatever rules;
* `Query.readValue_item` : when a single value comes back;
* `Query.items_roundTrip_iff` : when filters with single values come back;
* `FilterSet.run_roundTrip_iff` : when a set over the employee directory does.
-/

namespace Winnow

open Outcome

/-! ## Single values -/

/-- A text, a truth value, or a number that is no longer than the digit limit. -/
def Value.IsScalar : Value → Prop
  | .text _ | .bool _ | .float _ => True
  | .int n => (Numeral.digits n.natAbs).length ≤ Numeral.digitLimit
  | _ => False

namespace FieldKind

variable {rules : Rules} {kind : FieldKind} {v : Value}

/-- A single value that fits a kind is one of its values.  A text without a moment does not fit the
dates, and the empty one has none. -/
theorem hasItem_of_fits {today : Date} (hscalar : v.IsScalar)
    (h : kind.fits today v = .ok true) : kind.HasItem v := by
  unfold fits at h
  split at h
  iterate 3 exact trivial
  · exact hscalar
  · rename_i x
    have hnan : (!x.isNaN) = true := Except.ok.inj h
    exact (Bool.not_eq_true' _).mp hnan
  · rename_i t
    rintro rfl
    cases h
  · exact trivial
  · cases h

theorem hasItem_of_admits (hscalar : v.IsScalar) (h : kind.admits rules v = .ok true) :
    kind.HasItem v := by
  have hitem : kind.admitsItem rules v = .ok true → kind.HasItem v := by
    intro h
    obtain ⟨fitting, hfits, h⟩ := of_bind_ok h
    cases fitting with
    | false => cases h
    | true => exact hasItem_of_fits hscalar hfits
  cases v with
  | text _ | bool _ | int _ | float _ => exact hitem h
  | _ => cases hscalar

theorem hasItem_defaultValue (kind : FieldKind) (day : Date)
    (hscalar : (kind.defaultValue day.isoText).IsScalar) :
    kind.HasItem (kind.defaultValue day.isoText) := by
  cases kind with
  | number => exact hscalar
  | date =>
    have hlength := day.length_isoText
    intro hempty
    rw [hempty] at hlength
    cases hlength
  | array => cases hscalar
  | text | boolean | select => exact trivial

end FieldKind

/-! ## The shape of filters -/

namespace Filter

variable {rules : Rules} {d : Definition} {f g : Filter}

/-- The operator of a filter is known, and its value is one of its kind if it is a single one. -/
structure HasShape (d : Definition) (f : Filter) : Prop where
  operator : ∃ o ∈ d.operators, f.operator = .known o
  value : f.value.IsScalar → d.kind.HasItem f.value

theorem patch_hasShape {p : Patch} (hf : f.HasShape d) (h : p.apply rules (some d) f = .ok g) :
    g.HasShape d := by
  obtain ⟨-, -, hoperator, hvalue, -⟩ := Patch.apply_ok h
  have hallowed : ∃ o ∈ d.operators, g.operator = .known o := by
    rcases Patch.part_cases hoperator with hkept | ⟨v, -, haccepted⟩
    · exact hkept ▸ hf.operator
    · exact acceptedOperator_allowed haccepted
  refine ⟨hallowed, fun hscalar => ?_⟩
  rcases Patch.part_cases hvalue with hkept | ⟨v, -, haccepted⟩
  · rw [hkept] at hscalar ⊢
    exact hf.value hscalar
  · exact FieldKind.hasItem_of_admits hscalar (acceptedValue_admitted haccepted).1

end Filter

namespace FilterSet

variable {c : Catalog} {rules : Rules} {s : FilterSet}

/-- Every filter has a definition in a catalog and its shape. -/
structure Shaped (c : Catalog) (s : FilterSet) : Prop where
  catalog : s.catalog = c
  bound : ∀ f ∈ s.filters, ∃ d, c.find? f.definitionId = some d ∧ f.HasShape d

/-- **Every edit keeps the shape of the filters**, under whatever rules. -/
theorem edited_shaped {e : Edit} (hdated : e.IsDated) (hs : s.Shaped c) :
    (s.edited rules e).Shaped c :=
  ⟨(edited_catalog rules s e).trans hs.catalog,
    (edited_change rules s e).forall_bound (P := fun d f => f.HasShape d)
      (fun d _ day => ⟨⟨d.defaultOperator, d.default_allowed, rfl⟩,
        d.kind.hasItem_defaultValue day⟩)
      (fun hf happly => Filter.patch_hasShape hf happly) hdated hs.catalog hs.bound⟩

/-- The filters of a set that is edited have their shape, under whatever rules. -/
theorem run_shaped (rules : Rules) (tokens : Tokens) (today : Text) {edits : List Edit}
    (hdated : ∀ e ∈ edits, e.IsDated) :
    ((ofFilters c tokens today []).run rules edits).Shaped c := by
  have hempty : (ofFilters c tokens today []).Shaped c := ⟨rfl, fun f hf => by cases hf⟩
  exact run_preserves rules (fun _ _ he hs => edited_shaped he hs) hempty hdated

end FilterSet

/-! ## What becomes of a single value -/

namespace Query

/-- The text of a single value of a kind is not taken for that of a list. -/
def ReadsSingle (separator : CodePoint) (kind : FieldKind) (o : Operator) (v : Value) : Prop :=
  o.takesList = false ∧
    (kind = .array → ∀ t, v = .text t → t ≠ [] ∧ separator ∉ t)

theorem scalarValue_ok {kind : FieldKind} (hkind : kind ≠ .number) (t : Text) :
    ∃ w, scalarValue (some kind) t = .ok w := by
  unfold scalarValue
  cases kind with
  | number => exact absurd rfl hkind
  | boolean =>
    dsimp only
    split
    · exact ⟨_, rfl⟩
    · split
      · exact ⟨_, rfl⟩
      · split
        · exact ⟨_, rfl⟩
        · exact ⟨_, rfl⟩
  | date =>
    dsimp only
    split
    · exact ⟨_, rfl⟩
    · exact ⟨_, rfl⟩
  | text | select | array => exact ⟨_, rfl⟩

/-- The text of a single value is read as a list where it is taken for one. -/
theorem readValue_item_list {kind : FieldKind} {v : Value} {t : Text} {operator : OperatorChoice}
    (h : kind.HasItem v) (ht : v.toText = .ok t)
    (hlist : isListText (.text [.scalar ',']) (some kind) operator t = .ok true) :
    ∃ items, readValue (.text [.scalar ',']) (some kind) operator t = .ok (.list items) := by
  rw [readValue_of_isListText hlist]
  split
  · exact ⟨[], rfl⟩
  · have hpieces : ∃ ws,
        (Text.splitOn [.scalar ','] t).mapM (scalarValue (some kind)) = .ok ws := by
      by_cases hkind : kind = .number
      · subst hkind
        obtain ⟨t', w, ht', hread, _⟩ := scalarValue_number h
        rw [ht, Except.ok.injEq] at ht'
        subst ht'
        rw [Text.splitOn_of_not_mem (comma_not_mem_toText h ht), List.mapM_cons, hread]
        exact ⟨[w], rfl⟩
      · cases hpieces : (Text.splitOn [.scalar ','] t).mapM (scalarValue (some kind)) with
        | ok ws => exact ⟨ws, rfl⟩
        | error fault =>
          obtain ⟨piece, _, hfail⟩ := mapM_error hpieces
          obtain ⟨w, hw⟩ := scalarValue_ok hkind piece
          rw [hw] at hfail
          cases hfail
    obtain ⟨ws, hws⟩ := hpieces
    rw [hws]
    exact ⟨ws, rfl⟩

theorem equals_list_item {kind : FieldKind} {v : Value} (h : kind.HasItem v) (items : List Value) :
    (Value.list items).equals v = false := by
  cases v with
  | text _ | int _ | float _ | bool _ => rfl
  | _ => cases kind <;> cases h

/-- Whether the text of a single value is taken for that of a list. -/
theorem isListText_item {separator : CodePoint} {kind : FieldKind} {v : Value} {t : Text}
    (h : kind.HasItem v) (ht : v.toText = .ok t) (o : Operator) :
    ∃ taken, isListText (.text [separator]) (some kind) (.known o) t = .ok taken ∧
      (taken = false ↔ ReadsSingle separator kind o v) := by
  by_cases ho : o.takesList = true
  · refine ⟨true, isListText_of_takesList ho t, iff_of_false nofun fun hreads => ?_⟩
    exact Bool.false_ne_true (hreads.1.symm.trans ho)
  · have ho : o.takesList = false := by simpa using ho
    by_cases hkind : kind = .array
    · subst hkind
      cases v with
      | text s =>
        cases ht
        refine ⟨_, isListText_array ho t, ?_⟩
        rw [decide_eq_false_iff_not, not_or]
        constructor
        · intro hsingle
          exact ⟨ho, fun _ s hs => Value.text.inj hs ▸ hsingle⟩
        · intro hreads
          exact hreads.2 rfl t rfl
      | _ => cases h
    · exact ⟨false, isListText_of_ne_array ho hkind t,
        iff_of_true rfl ⟨ho, fun harray => absurd harray hkind⟩⟩

/-- **A single value comes back exactly if its text is not taken for that of a list.** -/
theorem readValue_item {kind : FieldKind} {v : Value} (h : kind.HasItem v) (o : Operator) :
    ∃ t w, valueText (.text [.scalar ',']) v = .ok t ∧
      readValue (.text [.scalar ',']) (some kind) (.known o) t = .ok w ∧
      (w.equals v = true ↔ ReadsSingle (.scalar ',') kind o v) := by
  obtain ⟨t, w, ht, hread, hequal, _⟩ := scalarValue_toText h
  have htext : valueText (.text [.scalar ',']) v = .ok t := (valueText_item h _).trans ht
  obtain ⟨taken, htaken, hreads⟩ := isListText_item h ht o
  cases taken with
  | true =>
    obtain ⟨items, hitems⟩ := readValue_item_list h ht htaken
    have hdiffers := equals_list_item h items
    refine ⟨t, _, htext, hitems, ?_⟩
    rw [hdiffers, ← hreads]
    exact iff_of_false nofun nofun
  | false =>
    refine ⟨t, w, htext, ?_, iff_of_true hequal (hreads.mp rfl)⟩
    rw [readValue_of_not_isListText htaken, hread]

/-- **Filters with single values come back exactly if no text of theirs is taken for that of a
list.** -/
theorem items_roundTrip_iff {c : Catalog} (hfields : (c.definitions.map Definition.field).Nodup)
    {filters : List Filter} (hnamed : ∀ f ∈ c.bind filters, f.1.SortingNamed)
    (hlength : filters.length ≤ 10 ^ Numeral.digitLimit)
    (h : ∀ f ∈ c.bind filters, (∃ o, f.1.operator = .known o) ∧ f.2.kind.HasItem f.1.value) :
    ∃ q entries p, ofFilters c filters = .ok q ∧
      paramsOfFilters c (.text [.scalar ',']) filters = .ok entries ∧
      ofParams c (.text [.scalar ',']) entries = .ok p ∧
      (p.equals q = true ↔ ∀ f ∈ c.bind filters, ∀ o, f.1.operator = .known o →
        ReadsSingle (.scalar ',') f.2.kind o f.1.value) := by
  refine ofParams_paramsOfFilters_iff hnamed hlength fun f hf => ?_
  obtain ⟨⟨o, ho⟩, hitem⟩ := h f hf
  obtain ⟨text, value, htext, hread, hreads⟩ := readValue_item hitem o
  have hword : f.1.operator.value = .text o.word := by rw [ho]; rfl
  obtain ⟨g, hg, hequals⟩ :=
    reread_equals_iff hfields (Catalog.mem_of_mem_bind hf).2.2 hword htext hread
  refine ⟨g, hg, hequals.trans (hreads.trans ?_)⟩
  rw [ho]
  exact ⟨fun hreads o' ho' => OperatorChoice.known.inj ho' ▸ hreads, fun hall => hall o rfl⟩

end Query

/-! ## Sets over the employee directory -/

/-- The skills are the only array of the directory. -/
theorem Employees.kind_eq_array_iff {id : Text} {d : Definition}
    (h : catalog.find? id = some d) : d.kind = .array ↔ id = ("skills" : Text) := by
  have hall : ∀ d ∈ catalog.definitions,
      d.kind = .array ↔ d.id = ("skills" : Text) := by decide +kernel
  rw [← Catalog.find?_id h]
  exact hall d (List.mem_of_find?_eq_some h)

namespace Filter

/-- A filter with a single value whose text is not taken for that of a list: its operator takes no
list, and the text of a skill is not empty and holds no comma. -/
def StaysSingle (f : Filter) : Prop :=
  (∀ o, f.operator = .known o → o.takesList = false) ∧
    (f.definitionId = ("skills" : Text) → ∀ t, f.value = .text t → t ≠ [] ∧ .scalar ',' ∉ t)

end Filter

namespace FilterSet

variable {s : FilterSet}

theorem bind_of_shaped {c : Catalog} (hs : s.Shaped c) {f : Filter} (hf : f ∈ s.filters) :
    ∃ d, (f, d) ∈ c.bind s.filters := by
  obtain ⟨d, hd, _⟩ := hs.bound f hf
  exact ⟨d, List.mem_filterMap.mpr ⟨f, hf, by rw [hd]; rfl⟩⟩

/-- A set over the directory that has its shape and single values comes back exactly if they stay
single. -/
theorem shaped_roundTrip_iff (hs : s.Shaped Employees.catalog)
    (hsorting : ∀ f ∈ s.filters, f.SortingKnown)
    (hscalar : ∀ f ∈ s.filters, f.value.IsScalar)
    (hlength : s.filters.length ≤ 10 ^ Numeral.digitLimit) :
    ∃ q entries p, Query.ofFilters Employees.catalog s.filters = .ok q ∧
      Query.paramsOfFilters Employees.catalog (.text [.scalar ',']) s.filters = .ok entries ∧
      Query.ofParams Employees.catalog (.text [.scalar ',']) entries = .ok p ∧
      (p.equals q = true ↔ ∀ f ∈ s.filters, f.StaysSingle) := by
  have hitems : ∀ f ∈ Employees.catalog.bind s.filters,
      (∃ o, f.1.operator = .known o) ∧ f.2.kind.HasItem f.1.value := by
    intro f hf
    obtain ⟨hmem, hfind, _⟩ := Catalog.mem_of_mem_bind hf
    obtain ⟨d, hd, hshape⟩ := hs.bound f.1 hmem
    rw [hfind, Option.some.injEq] at hd
    subst hd
    obtain ⟨o, _, ho⟩ := hshape.operator
    exact ⟨⟨o, ho⟩, hshape.value (hscalar f.1 hmem)⟩
  obtain ⟨q, entries, p, hq, hentries, hp, hequals⟩ := Query.items_roundTrip_iff (by decide)
    (fun f hf => (hsorting f.1 (Catalog.mem_of_mem_bind hf).1).named) hlength hitems
  refine ⟨q, entries, p, hq, hentries, hp, hequals.trans ⟨fun h f hf => ?_, fun h f hf o ho => ?_⟩⟩
  · obtain ⟨d, hbound⟩ := bind_of_shaped hs hf
    have hkind := Employees.kind_eq_array_iff (Catalog.mem_of_mem_bind hbound).2.1
    obtain ⟨o, ho⟩ := (hitems (f, d) hbound).1
    exact ⟨fun o ho => (h (f, d) hbound o ho).1,
      fun hid => (h (f, d) hbound o ho).2 (hkind.mpr hid)⟩
  · obtain ⟨hmem, hfind, _⟩ := Catalog.mem_of_mem_bind hf
    obtain ⟨hoperator, hskills⟩ := h f.1 hmem
    exact ⟨hoperator o ho, fun hkind => hskills ((Employees.kind_eq_array_iff hfind).mp hkind)⟩

/-- **A set over the directory with single values comes back from its flat parameters exactly if
these stay single**, whatever edits have led to it, under whatever rules. -/
theorem run_roundTrip_iff (rules : Rules) (tokens : Tokens) (today : Text) {edits : List Edit}
    (hdated : ∀ e ∈ edits, e.IsDated)
    (hscalar : ∀ f ∈ ((ofFilters Employees.catalog tokens today []).run rules edits).filters,
      f.value.IsScalar)
    (hlength : ((ofFilters Employees.catalog tokens today []).run rules edits).filters.length ≤
      10 ^ Numeral.digitLimit) :
    ∃ q entries p,
      Query.ofFilters Employees.catalog
        ((ofFilters Employees.catalog tokens today []).run rules edits).filters = .ok q ∧
      Query.paramsOfFilters Employees.catalog (.text [.scalar ','])
        ((ofFilters Employees.catalog tokens today []).run rules edits).filters = .ok entries ∧
      Query.ofParams Employees.catalog (.text [.scalar ',']) entries = .ok p ∧
      (p.equals q = true ↔
        ∀ f ∈ ((ofFilters Employees.catalog tokens today []).run rules edits).filters,
          f.StaysSingle) :=
  shaped_roundTrip_iff (run_shaped rules tokens today hdated)
    (run_sortingKnown (.empty tokens today) edits) hscalar hlength

/-- One skill, which is a text and not a list. -/
def skillEdits : List Edit :=
  [.compose (default : Date).isoText (.text "skills"),
    .update (.text "skills_000000000001") ⟨none, some (.text "go"), none⟩]

set_option maxRecDepth 8000 in
/-- The skill comes back. -/
theorem run_roundTrip_iff_skill :
    let s := (ofFilters Employees.catalog ⟨[], 0⟩ [] []).run ⟨default, Settings.bundled.limits⟩
      skillEdits
    ∃ q entries p, Query.ofFilters Employees.catalog s.filters = .ok q ∧
      Query.paramsOfFilters Employees.catalog (.text [.scalar ',']) s.filters = .ok entries ∧
      Query.ofParams Employees.catalog (.text [.scalar ',']) entries = .ok p ∧
      p.equals q = true := by
  intro s
  have hfilters : s.filters =
      [⟨"skills_000000000001", "skills", .known .contains, .text "go", none⟩] := rfl
  have hdated : ∀ e ∈ skillEdits, e.IsDated := by
    intro e he
    rcases List.mem_pair.mp he with rfl | rfl
    · exact ⟨default, rfl⟩
    · trivial
  have hscalar : ∀ f ∈ s.filters, f.value.IsScalar := by
    rw [hfilters]
    exact List.forall_mem_singleton.mpr trivial
  have hlength : s.filters.length ≤ 10 ^ Numeral.digitLimit := by
    rw [hfilters]
    exact Nat.one_le_pow _ _ (by decide)
  obtain ⟨q, entries, p, hq, hentries, hp, hequals⟩ :=
    run_roundTrip_iff ⟨default, Settings.bundled.limits⟩ ⟨[], 0⟩ [] hdated hscalar hlength
  refine ⟨q, entries, p, hq, hentries, hp, hequals.mpr fun f hf => ?_⟩
  have hf : f ∈ s.filters := hf
  rw [hfilters] at hf
  rw [List.mem_singleton.mp hf]
  refine ⟨fun o ho => ?_, fun _ t ht => ?_⟩
  · cases ho
    rfl
  · cases ht
    decide

/-- A new filter for the salary, and then the operator for ranges. -/
def salaryRangeEdits : List Edit :=
  [.compose (default : Date).isoText (.text "salary"),
    .update (.text "salary_000000000001") ⟨some (.text "between"), none, none⟩]

set_option maxRecDepth 8000 in
/-- **A single value under the operator for ranges does not come back**: it is read as a list. -/
theorem not_run_roundTrip :
    ¬ ∀ edits : List Edit, (∀ e ∈ edits, e.IsDated) →
      let s := (ofFilters Employees.catalog ⟨[], 0⟩ [] []).run ⟨default, Settings.bundled.limits⟩
        edits
      (∀ f ∈ s.filters, f.value.IsScalar) → s.filters.length ≤ 10 ^ Numeral.digitLimit →
      ∃ q entries p, Query.ofFilters Employees.catalog s.filters = .ok q ∧
        Query.paramsOfFilters Employees.catalog (.text [.scalar ',']) s.filters = .ok entries ∧
        Query.ofParams Employees.catalog (.text [.scalar ',']) entries = .ok p ∧
        p.equals q = true := by
  intro hall
  have hdated : ∀ e ∈ salaryRangeEdits, e.IsDated := by
    intro e he
    rcases List.mem_pair.mp he with rfl | rfl
    · exact ⟨default, rfl⟩
    · trivial
  have hfilters : ((ofFilters Employees.catalog ⟨[], 0⟩ [] []).run
        ⟨default, Settings.bundled.limits⟩ salaryRangeEdits).filters =
      [⟨"salary_000000000001", "salary", .known .between, .int 0, none⟩] := rfl
  have hclaimed := hall salaryRangeEdits hdated
  dsimp only at hclaimed
  rw [hfilters] at hclaimed
  have hdigits : (Numeral.digits 0).length ≤ Numeral.digitLimit := by decide
  obtain ⟨q, entries, p, hq, hentries, hp, hequal⟩ :=
    hclaimed (List.forall_mem_singleton.mpr hdigits) (Nat.one_le_pow _ _ (by decide))
  have hquery : Query.ofFilters Employees.catalog
      [⟨"salary_000000000001", "salary", .known .between, .int 0, none⟩] =
        .ok ⟨[⟨"salary", .known .between, .int 0, none⟩], []⟩ := rfl
  have hparams : Query.paramsOfFilters Employees.catalog (.text [.scalar ','])
      [⟨"salary_000000000001", "salary", .known .between, .int 0, none⟩] =
        .ok [("filter_0_field", .text "salary"), ("filter_0_operator", .text "between"),
          ("filter_0_value", .text "0")] := rfl
  have hread : Query.ofParams Employees.catalog (.text [.scalar ','])
      [("filter_0_field", .text "salary"), ("filter_0_operator", .text "between"),
        ("filter_0_value", .text "0")] =
          .ok ⟨[⟨"salary", .known .between, .list [.int 0], none⟩], []⟩ := rfl
  rw [hquery, Except.ok.injEq] at hq
  rw [hparams, Except.ok.injEq] at hentries
  subst hq hentries
  rw [hread, Except.ok.injEq] at hp
  subst hp
  cases hequal

end FilterSet

end Winnow

import Winnow.Catalog.Employees
import Winnow.Proofs.Filter.Entry
import Winnow.Proofs.Json.ShortIntegers
import Winnow.Settings

/-!
# Entries that are repaired

A stored entry with an id, a definition and a direction that can be read keeps its operator and its
value where the definition admits them, and gets the defaults of the definition in their place where
it does not.  Only two things are not repaired: an operator that is a list or an object, which
cannot be looked up, and a value of which it cannot be told whether it is admitted.

* `Filter.Repairs` : the filter of an entry, part by part;
* `Filter.ofParts_eq` : an entry is read unless its operator cannot be looked up;
* `Filter.repaired_ok_iff`, `Filter.repairs_of_repaired` : what is read is repaired;
* `Filter.resolve_repairs` : the filter that an entry makes for a catalog.
-/

namespace Winnow

open Outcome

namespace Value

theorem IsJson.plainText_ok {v : Value} (h : v.IsJson) : ∃ t, v.plainText = .ok t := by
  have hliteral := h.hasShortIntegers.literal_ok
  cases h with
  | text t => exact ⟨t, rfl⟩
  | _ => exact hliteral

theorem IsJson.ne_tuple {v : Value} (h : v.IsJson) (items : List Value) : v ≠ .tuple items := by
  rintro rfl
  cases h

/-- The value of a key, or nothing where the key is missing. -/
def held (key : Text) (entries : Entries) : Value := (find? key entries).getD .null

theorem IsJson.of_find? {entries : Entries} (h : (Value.object entries).IsJson) {key : Text}
    {v : Value} (hfind : find? key entries = some v) : v.IsJson := by
  cases h with
  | object hentries =>
    obtain ⟨e, he, rfl⟩ := Option.map_eq_some_iff.mp hfind
    exact hentries e (List.mem_of_find?_eq_some he)

theorem IsJson.held {entries : Entries} (h : (Value.object entries).IsJson) (key : Text) :
    (Value.held key entries).IsJson := by
  unfold Value.held
  cases hfind : find? key entries with
  | none => exact .null
  | some v => exact h.of_find? hfind

end Value

theorem OperatorChoice.value_ofValue (v : Value) : (ofValue v).value = v := by
  unfold ofValue
  split
  · rename_i t
    split
    · rename_i o ho
      have hword := List.find?_some (p := fun o : Operator => o.word == t) ho
      exact congrArg Value.text (beq_iff_eq.mp hword)
    · rfl
  · rfl

namespace Filter

variable {c : Catalog} {rules : Rules} {d : Definition} {entries : Value.Entries}

/-- An entry gives the id of a definition of a catalog, under the newer key or the older one. -/
def Names (c : Catalog) (entries : Value.Entries) (d : Definition) : Prop :=
  ∃ v t, entryDefinition entries = .ok v ∧ v.plainText = .ok t ∧ c.find? t = some d

/-- The direction of an entry is missing, null or one of the vocabulary. -/
def Directed (entries : Value.Entries) : Prop :=
  ∀ v, (Value.find? "sortDirection" entries).or (Value.find? "sortOrder" entries) = some v →
    v = .null ∨ ∃ direction : Direction, v = .text direction.word

/-- What a filter is to have from an entry with an operator and a value: each of the two stays if
the definition admits it, and is the default of the definition if not. -/
structure Repairs (rules : Rules) (d : Definition) (operator value : Value) (f : Filter) :
    Prop where
  operator_kept : ∀ o ∈ d.operators, operator = .text o.word → f.operator = .known o
  operator_replaced : (∀ o ∈ d.operators, operator ≠ .text o.word) →
    f.operator = .known d.defaultOperator
  value_kept : d.kind.admits rules value = .ok true → f.value = value
  value_replaced : d.kind.admits rules value = .ok false →
    f.value = d.kind.defaultValue rules.today.isoText

/-! ## Reading -/

theorem Directed.entrySorting_ok (h : Directed entries) :
    ∃ sorting, entrySorting entries = .ok sorting := by
  unfold entrySorting
  rw [Option.orElse_eq_or]
  split
  · exact ⟨none, rfl⟩
  · exact ⟨none, rfl⟩
  · rename_i v hnull hfind
    rcases h v hfind with rfl | ⟨direction, rfl⟩
    · exact absurd rfl hnull
    · exact ⟨some (.by direction), by rw [Direction.ofValue_eq_ok_iff.mpr rfl]; rfl⟩

/-- **An entry is read** unless its operator cannot be looked up. -/
theorem ofParts_eq (hjson : (Value.object entries).IsJson)
    (hid : Value.find? "id" entries ≠ none) (hnames : Names c entries d)
    (hdirected : Directed entries) :
    ∃ id definitionId sorting, c.find? definitionId = some d ∧
      ofParts entries =
        if (Value.held "operator" entries).isHashable then
          .ok ⟨id, definitionId, .ofValue (Value.held "operator" entries),
            Value.held "value" entries, sorting⟩
        else .error .unhashable := by
  obtain ⟨idValue, hidValue⟩ := Option.ne_none_iff_exists'.mp hid
  obtain ⟨id, hid⟩ := (hjson.of_find? hidValue).plainText_ok
  obtain ⟨definition, definitionId, hdefinition, htext, hfind⟩ := hnames
  obtain ⟨sorting, hsorting⟩ := hdirected.entrySorting_ok
  have hrequired : required "id" entries = .ok idValue := by rw [required, hidValue]
  have hoperator : entryOperator entries =
      if (Value.held "operator" entries).isHashable then
        .ok (.ofValue (Value.held "operator" entries))
      else .error .unhashable := rfl
  refine ⟨id, definitionId, sorting, hfind, ?_⟩
  unfold ofParts
  rw [hdefinition, hoperator, hrequired, hsorting]
  split
  · show (do
      let id ← idValue.plainText
      let definitionId ← definition.plainText
      return (⟨id, definitionId, _, _, sorting⟩ : Filter)) = _
    rw [hid, htext]
    rfl
  · rfl

/-! ## Repairing -/

/-- **What is read is repaired** exactly if it can be told whether its value is admitted. -/
theorem repaired_ok_iff {f : Filter} :
    (∃ g, f.repaired rules d = .ok g) ↔
      ∃ admitted, d.kind.admits rules f.value = .ok admitted := by
  unfold repaired
  cases d.kind.admits rules f.value with
  | error fault => exact iff_of_false nofun nofun
  | ok admitted => exact iff_of_true ⟨_, rfl⟩ ⟨admitted, rfl⟩

theorem repairs_of_repaired {f g : Filter} (htuple : ∀ items, f.value ≠ .tuple items)
    (h : f.repaired rules d = .ok g) : Repairs rules d f.operator.value f.value g := by
  unfold repaired at h
  obtain ⟨admitted, hadmits, h⟩ := of_bind_ok h
  cases h
  refine ⟨fun o ho hword => ?_, fun hother => ?_, fun hvalue => ?_, fun hvalue => ?_⟩
  · rw [Definition.allowed?_eq_some_iff.mpr ⟨hword, ho⟩]
    rfl
  · cases hallowed : d.allowed? f.operator.value with
    | none => rfl
    | some o =>
      obtain ⟨hword, ho⟩ := Definition.allowed?_eq_some_iff.mp hallowed
      exact absurd hword (hother o ho)
  · rw [hadmits, Except.ok.injEq] at hvalue
    rw [hvalue]
    exact Value.normalize_of_ne_tuple htuple
  · rw [hadmits, Except.ok.injEq] at hvalue
    rw [hvalue]
    rfl

/-- **Bad operators and values are repaired.**  An entry with an id, a definition of the catalog and
a direction that can be read makes a filter exactly if its operator can be looked up, which is so of
all but lists and objects, and if it can be told whether its value is admitted.  Its operator and
its value are the stored ones where the definition admits them, and the defaults elsewhere. -/
theorem resolve_repairs (c : Catalog) (rules : Rules) {entries : Value.Entries} {d : Definition}
    (hjson : (Value.object entries).IsJson) (hid : Value.find? "id" entries ≠ none)
    (hnames : Names c entries d) (hdirected : Directed entries) :
    ((∃ f, resolve c rules (.object entries) = .ok f) ↔
      (Value.held "operator" entries).isHashable = true ∧
        ∃ admitted, d.kind.admits rules (Value.held "value" entries) = .ok admitted) ∧
    ∀ f, resolve c rules (.object entries) = .ok f →
      Repairs rules d (Value.held "operator" entries) (Value.held "value" entries) f := by
  obtain ⟨id, definitionId, sorting, hfind, hread⟩ :=
    ofParts_eq hjson hid hnames hdirected
  cases hhashable : (Value.held "operator" entries).isHashable with
  | false =>
    have hfail : resolve c rules (.object entries) = .error .unhashable := by
      rw [resolve, ofEntry, hread, hhashable]
      rfl
    rw [hfail]
    refine ⟨iff_of_false ?_ ?_, fun f hf => ?_⟩
    · rintro ⟨f, hf⟩
      cases hf
    · rintro ⟨h, -⟩
      cases h
    · cases hf
  | true =>
    have hresolve : resolve c rules (.object entries) =
        repaired rules d ⟨id, definitionId, .ofValue (Value.held "operator" entries),
          Value.held "value" entries, sorting⟩ := by
      rw [resolve, ofEntry, hread, hhashable]
      simp only [if_true, bind, Except.bind, hfind]
    rw [hresolve]
    refine ⟨repaired_ok_iff.trans (and_iff_right rfl).symm, fun f hf => ?_⟩
    · have hrepairs := repairs_of_repaired (hjson.held "value").ne_tuple hf
      rwa [OperatorChoice.value_ofValue] at hrepairs

/-- An entry for a salary whose operator and value are those of a text. -/
def misfitEntry : Value.Entries :=
  [("id", .int 5), ("filterId", .text "salary"), ("operator", .text "starts_with"),
    ("value", .text "lots"), ("sortOrder", .text "asc")]

/-- An entry for a city with a list for an operator. -/
def listedEntry : Value.Entries :=
  [("id", .text "a"), ("definitionId", .text "city"), ("operator", .list [])]

/-- The entry for a salary gets the defaults of the salary. -/
theorem resolve_repairs_misfit :
    ∃ f, resolve Employees.catalog ⟨default, Settings.bundled.limits⟩ (.object misfitEntry) =
        .ok f ∧ f.operator = .known .greaterThanOrEqual ∧ f.value = .int 0 := by
  have hjson : (Value.object misfitEntry).IsJson := by
    refine .object fun e he => ?_
    simp only [misfitEntry, List.mem_cons, List.not_mem_nil, or_false] at he
    rcases he with rfl | rfl | rfl | rfl | rfl
    · exact .int (by decide)
    all_goals exact .text _
  have hnames : Names Employees.catalog misfitEntry Employees.definitions[7] :=
    ⟨.text "salary", "salary", rfl, rfl, rfl⟩
  have hdirected : Directed misfitEntry := by
    rintro v ⟨⟩
    exact .inr ⟨.ascending, rfl⟩
  obtain ⟨hmade, hrepairs⟩ := resolve_repairs Employees.catalog
    ⟨default, Settings.bundled.limits⟩ hjson nofun hnames hdirected
  obtain ⟨f, hf⟩ := hmade.mpr ⟨rfl, false, rfl⟩
  have hother : ∀ o ∈ Employees.numberOperators, ("starts_with" : Text) ≠ o.word := by decide
  refine ⟨f, hf, (hrepairs f hf).operator_replaced fun o ho hword => ?_,
    (hrepairs f hf).value_replaced rfl⟩
  exact hother o ho (Value.text.inj hword)

/-- **Not every such entry is repaired**: the list that one has for an operator cannot be looked
up. -/
theorem not_resolve_repairs :
    ¬ ∀ (entries : Value.Entries) (d : Definition), (Value.object entries).IsJson →
      Value.find? "id" entries ≠ none → Names Employees.catalog entries d → Directed entries →
        ∃ f, resolve Employees.catalog ⟨default, Settings.bundled.limits⟩ (.object entries) =
          .ok f := by
  intro h
  have hjson : (Value.object listedEntry).IsJson := by
    refine .object fun e he => ?_
    simp only [listedEntry, List.mem_cons, List.not_mem_nil, or_false] at he
    rcases he with rfl | rfl | rfl
    · exact .text _
    · exact .text _
    · exact .list nofun
  have hnames : Names Employees.catalog listedEntry Employees.definitions[10] :=
    ⟨.text "city", "city", rfl, rfl, rfl⟩
  obtain ⟨f, hf⟩ := h listedEntry _ hjson nofun hnames nofun
  cases hf

end Filter

end Winnow

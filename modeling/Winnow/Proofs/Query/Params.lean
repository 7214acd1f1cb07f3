import Winnow.Proofs.Filter.Direction
import Winnow.Proofs.Outcome
import Winnow.Proofs.Query.Keys

/-!
# Reading back the parameters of a query

Parameters carry the index of their filter.  Since the indices grow from filter to filter, the parts
are collected in the order of the filters, and the query comes back filter by filter.

* `Query.splitKey?_paramKey` : a key is taken apart into its index and its part;
* `Query.collect_filterParams` : the parameters of one more filter add its parts;
* `QueryFilter.reread` : what a filter comes back as;
* `Query.ofParams_params` : the parameters of a query are read as the query of what its filters come
  back as.
-/

namespace Winnow

open Outcome

namespace Query

/-! ## Keys -/

/-- **A key is taken apart** into the digits of its index and its part. -/
theorem splitKey?_paramKey (index : Nat) (part : Part) :
    splitKey? (paramKey index part) = some (Numeral.digits index, part) :=
  splitKey?_eq_some_iff.mpr (names_paramKey index part)

/-! ## Collecting -/

/-- Collects one more parameter. -/
def collectEntry (parts : List Parts) (e : Text × Value) : Except Fault (List Parts) :=
  match splitKey? e.1 with
  | some (numeral, part) => do return setPart (← Numeral.toInt numeral) part e.2 parts
  | none => .ok parts

theorem collect_eq (entries : Value.Entries) : collect entries = entries.foldlM collectEntry [] :=
  rfl

/-- A key that names nothing is passed over. -/
theorem collectEntry_of_not_names {key : Text} (h : ∀ numeral part, ¬ Names key numeral part)
    (v : Value) (parts : List Parts) : collectEntry parts (key, v) = .ok parts := by
  have hsplit : splitKey? key = none :=
    Option.eq_none_iff_forall_ne_some.mpr fun named hnamed =>
      h named.1 named.2 (splitKey?_eq_some_iff.mp hnamed)
  unfold collectEntry
  rw [hsplit]

/-- A key sets the part that it names, unless its numeral is too long. -/
theorem collectEntry_of_names {key numeral : Text} {part : Part} (h : Names key numeral part)
    (v : Value) (parts : List Parts) :
    collectEntry parts (key, v) = if Numeral.digitLimit < numeral.length
      then .error (.digitLimit (some numeral.length))
      else .ok (setPart (indexOf numeral) part v parts) := by
  unfold collectEntry
  rw [splitKey?_eq_some_iff.mpr h]
  dsimp only
  rw [h.toInt]
  split <;> rfl

theorem collectEntry_paramKey {index : Nat}
    (hindex : (Numeral.digits index).length ≤ Numeral.digitLimit) (part : Part) (v : Value)
    (parts : List Parts) :
    collectEntry parts (paramKey index part, v) = .ok (setPart index part v parts) := by
  unfold collectEntry
  dsimp only
  rw [splitKey?_paramKey]
  dsimp only
  rw [Numeral.toInt_digits hindex]
  rfl

/-- The query of the parts of filters. -/
def ofPartsList (c : Catalog) (separator : Separator) (parts : List Parts) :
    Except Fault Query := do
  return ofQueryFilters ((← parts.mapM (ofParts c separator)).filterMap id)

theorem ofParams_eq (c : Catalog) (separator : Separator) (entries : Value.Entries) :
    ofParams c separator entries = collect entries >>= ofPartsList c separator := rfl

theorem ofPartsList_succeeds_iff (c : Catalog) (separator : Separator) (parts : List Parts) :
    (∃ q, ofPartsList c separator parts = .ok q) ↔
      ∀ p ∈ parts, ∃ f, ofParts c separator p = .ok f := by
  rw [← mapM_succeeds_iff]
  unfold ofPartsList
  cases parts.mapM (ofParts c separator) with
  | error fault => exact iff_of_false nofun nofun
  | ok fs => exact iff_of_true ⟨_, rfl⟩ ⟨fs, rfl⟩

/-- Nothing is read where the field or the operator is missing. -/
theorem ofParts_of_missing {c : Catalog} {separator : Separator} {p : Parts}
    (h : (p.field.isSome && p.operator.isSome) = false) : ofParts c separator p = .ok none := by
  unfold ofParts
  cases hfield : p.field with
  | none => rfl
  | some field =>
    cases hoperator : p.operator with
    | none => rfl
    | some operator =>
      rw [hfield, hoperator] at h
      cases h

/-- A filter is read from parts exactly if they have a field and an operator. -/
theorem isSome_of_ofParts {c : Catalog} {separator : Separator} {p : Parts}
    {f : Option QueryFilter} (h : ofParts c separator p = .ok f) :
    f.isSome = (p.field.isSome && p.operator.isSome) := by
  cases hcomplete : p.field.isSome && p.operator.isSome with
  | false =>
    rw [ofParts_of_missing hcomplete] at h
    cases h
    rfl
  | true =>
    obtain ⟨hfield, hoperator⟩ := Bool.and_eq_true_iff.mp hcomplete
    obtain ⟨field, hfield⟩ := Option.isSome_iff_exists.mp hfield
    obtain ⟨operator, hoperator⟩ := Option.isSome_iff_exists.mp hoperator
    unfold ofParts at h
    rw [hfield, hoperator] at h
    dsimp only at h
    split at h
    · cases h
    · obtain ⟨_, -, h⟩ := of_bind_ok h
      cases h
      rfl

variable {index : Int} {part : Part} {v : Value} {parts : List Parts}

/-- The first part of a filter comes after the parts of the filters before it. -/
theorem setPart_new (h : ∀ p ∈ parts, p.index < index) :
    setPart index part v parts = parts ++ [(Parts.none index).set part v] := by
  induction parts with
  | nil => rfl
  | cons p ps ih =>
    have hp : p.index < index := h p List.mem_cons_self
    rw [setPart, if_neg (by omega), if_neg (by omega),
      ih fun q hq => h q (List.mem_cons_of_mem p hq), List.cons_append]

/-- The other parts of a filter join its first one. -/
theorem setPart_last (h : ∀ p ∈ parts, p.index < index) {q : Parts} (hq : q.index = index) :
    setPart index part v (parts ++ [q]) = parts ++ [q.set part v] := by
  induction parts with
  | nil => rw [List.nil_append, setPart, if_neg (by omega), if_pos hq.symm, List.nil_append]
  | cons p ps ih =>
    have hp : p.index < index := h p List.mem_cons_self
    rw [List.cons_append, setPart, if_neg (by omega), if_neg (by omega),
      ih fun q hq => h q (List.mem_cons_of_mem p hq), List.cons_append]

/-- The parts of a filter whose value has a text. -/
def partsOf (index : Nat) (f : QueryFilter) (text : Text) : Parts :=
  ⟨index, some (.text f.field), some f.operator.value, some (.text text),
    f.direction.map fun d => .text d.word⟩

/-- **The parameters of one more filter add its parts.** -/
theorem collect_filterParams {separator : Separator} {index : Nat} {f : QueryFilter} {text : Text}
    (htext : valueText separator f.value = .ok text)
    (hindex : (Numeral.digits index).length ≤ Numeral.digitLimit)
    (hparts : ∀ p ∈ parts, p.index < index) :
    ∃ entries, filterParams separator index f = .ok entries ∧
      entries.foldlM collectEntry parts = .ok (parts ++ [partsOf index f text]) := by
  unfold filterParams
  rw [htext]
  refine ⟨_, rfl, ?_⟩
  have hfirst : ∀ part v, collectEntry parts (paramKey index part, v) =
      .ok (parts ++ [(Parts.none index).set part v]) := by
    intro part v
    rw [collectEntry_paramKey hindex, setPart_new hparts]
  have hnext : ∀ part v (q : Parts), q.index = index →
      collectEntry (parts ++ [q]) (paramKey index part, v) = .ok (parts ++ [q.set part v]) := by
    intro part v q hq
    rw [collectEntry_paramKey hindex, setPart_last hparts hq]
  rw [List.foldlM_append, List.foldlM_cons, hfirst]
  show List.foldlM collectEntry (parts ++ [_]) _ >>= _ = _
  rw [List.foldlM_cons, hnext .operator _ _ rfl]
  show List.foldlM collectEntry (parts ++ [_]) _ >>= _ = _
  rw [List.foldlM_cons, hnext .value _ _ rfl]
  show List.foldlM collectEntry (parts ++ [_]) _ = _
  unfold partsOf
  cases f.direction with
  | none => rfl
  | some d =>
    dsimp only
    rw [List.foldlM_cons, hnext .sort _ _ rfl]
    rfl

end Query

/-! ## Filters -/

/-- What a filter comes back as: its operator is sought in the vocabulary, and its value is read
from its text by the kind of its field. -/
def QueryFilter.reread (c : Catalog) (separator : Separator) (f : QueryFilter) :
    Except Fault QueryFilter := do
  if !f.operator.value.isHashable then .error .unhashable
  let operator := OperatorChoice.ofValue f.operator.value
  let text ← Query.valueText separator f.value
  let value ← Query.readValue separator ((c.byField? f.field).map Definition.kind) operator text
  return ⟨f.field, operator, value, f.direction⟩

namespace Query

variable {c : Catalog} {separator : Separator} {f g : QueryFilter}

theorem reread_ok (h : f.reread c separator = .ok g) :
    ∃ text value, valueText separator f.value = .ok text ∧
      readValue separator ((c.byField? f.field).map Definition.kind)
        (OperatorChoice.ofValue f.operator.value) text = .ok value ∧
      f.operator.value.isHashable = true ∧
      g = ⟨f.field, OperatorChoice.ofValue f.operator.value, value, f.direction⟩ := by
  unfold QueryFilter.reread at h
  cases hhashable : f.operator.value.isHashable with
  | false =>
    rw [hhashable] at h
    cases h
  | true =>
    rw [hhashable] at h
    obtain ⟨text, htext, h⟩ := of_bind_ok h
    obtain ⟨value, hvalue, h⟩ := of_bind_ok h
    cases h
    exact ⟨text, value, htext, hvalue, rfl, rfl⟩

theorem ofParts_partsOf {index : Nat} {text : Text} {value : Value}
    (hvalue : readValue separator ((c.byField? f.field).map Definition.kind)
      (OperatorChoice.ofValue f.operator.value) text = .ok value)
    (hhashable : f.operator.value.isHashable = true) :
    ofParts c separator (partsOf index f text) =
      .ok (some ⟨f.field, OperatorChoice.ofValue f.operator.value, value, f.direction⟩) := by
  have hdirection : (f.direction.map fun d => Value.text d.word).bind
      (fun v => Direction.ofText? (paramText v)) = f.direction := by
    cases f.direction with
    | none => rfl
    | some d => exact Direction.ofText?_word d
  unfold ofParts partsOf
  dsimp only
  rw [hhashable, hdirection]
  show (readValue separator ((c.byField? f.field).map Definition.kind) _ text >>= _) = _
  rw [hvalue]
  rfl

/-- **The filters of a query come back one by one**, whatever was collected before them. -/
theorem paramsFrom_reread {fs gs : List QueryFilter}
    (h : fs.mapM (QueryFilter.reread c separator) = .ok gs) {index : Nat}
    (hindex : index + fs.length ≤ 10 ^ Numeral.digitLimit) {parts : List Parts}
    (hparts : ∀ p ∈ parts, p.index < index) :
    ∃ entries new, paramsFrom separator index fs = .ok entries ∧
      entries.foldlM collectEntry parts = .ok (parts ++ new) ∧
      new.mapM (ofParts c separator) = .ok (gs.map some) := by
  induction fs generalizing gs index parts with
  | nil =>
    cases h
    exact ⟨[], [], rfl, by rw [List.append_nil]; rfl, rfl⟩
  | cons f fs ih =>
    rw [List.mapM_cons] at h
    obtain ⟨g, hg, h⟩ := of_bind_ok h
    obtain ⟨gs, hgs, h⟩ := of_bind_ok h
    cases h
    rw [List.length_cons] at hindex
    obtain ⟨text, value, htext, hvalue, hhashable, rfl⟩ := reread_ok hg
    have hdigits : (Numeral.digits index).length ≤ Numeral.digitLimit :=
      Numeral.length_digits_le (by decide) (by omega)
    obtain ⟨first, hfirst, hcollect⟩ := collect_filterParams htext hdigits hparts
    have hlater : ∀ p ∈ parts ++ [partsOf index f text], p.index < (index + 1 : Nat) := by
      intro p hp
      rcases List.mem_append.mp hp with hp | hp
      · have hless := hparts p hp
        omega
      · rw [List.mem_singleton.mp hp]
        show (index : Int) < (index + 1 : Nat)
        omega
    obtain ⟨entries, new, hentries, hrest, hread⟩ := ih hgs (by omega) hlater
    refine ⟨first ++ entries, partsOf index f text :: new, ?_, ?_, ?_⟩
    · rw [paramsFrom, hfirst, hentries]
      rfl
    · rw [List.foldlM_append, hcollect]
      show entries.foldlM collectEntry _ = _
      rw [hrest, List.append_assoc, List.singleton_append]
    · rw [List.mapM_cons, ofParts_partsOf hvalue hhashable, hread]
      rfl

/-- **The parameters of a query are read as the query of what its filters come back as.** -/
theorem ofParams_params {q : Query} {gs : List QueryFilter}
    (h : q.filters.mapM (QueryFilter.reread c separator) = .ok gs)
    (hlength : q.filters.length ≤ 10 ^ Numeral.digitLimit) :
    ∃ entries, q.params separator = .ok entries ∧
      ofParams c separator entries = .ok (ofQueryFilters gs) := by
  obtain ⟨entries, parts, hentries, hcollect, hread⟩ :=
    @paramsFrom_reread c separator q.filters gs h 0 (by omega) [] nofun
  refine ⟨entries, hentries, ?_⟩
  unfold ofParams
  rw [collect_eq, hcollect]
  show (do return ofQueryFilters ((← parts.mapM (ofParts c separator)).filterMap id)) = _
  rw [hread]
  show Except.ok (ofQueryFilters ((gs.map some).filterMap id)) = _
  rw [List.filterMap_map]
  exact congrArg (fun fs => Except.ok (ofQueryFilters fs)) (List.filterMap_some ..)

end Query

end Winnow

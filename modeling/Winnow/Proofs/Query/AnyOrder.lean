import Mathlib.Data.List.Find
import Mathlib.Data.List.Sort
import Winnow.Catalog.Employees
import Winnow.Proofs.Query.Collecting
import Winnow.Proofs.Value.Entries

/-!
# Parameters in any order

Where every key that names a part is a written one, the parameters of a mapping are read alike in
whatever order they stand.  The last parameter for a part is then the only one, so nothing is left
of the order but that of the indices.

* `Query.IsCanonical` : distinct keys, of which each is a written one or names nothing;
* `Query.latest_eq_find?` : the last parameter for a part is the one with its written key;
* `Query.collect_perm` : **what is collected does not depend on the order**;
* `Query.ofParams_perm` : neither does what is read, which are the filters with a field and an
  operator in the order of their indices.
-/

namespace Winnow

open Outcome

namespace Query

variable {c : Catalog} {separator : Separator} {entries entries' : Value.Entries} {index : Nat}
  {part : Part} {v : Value}

/-- A key that is written for a part of a filter, with an index that can be read. -/
def IsWritten (key : Text) : Prop :=
  ∃ index part, (Numeral.digits index).length ≤ Numeral.digitLimit ∧ key = paramKey index part

/-- The parameters of a mapping in which no key but the written ones names a part of a filter. -/
structure IsCanonical (entries : Value.Entries) : Prop where
  distinct : (entries.map Prod.fst).Nodup
  keys : ∀ e ∈ entries, IsWritten e.1 ∨ ∀ numeral part, ¬ Names e.1 numeral part

theorem IsCanonical.perm (h : IsCanonical entries) (hperm : entries'.Perm entries) :
    IsCanonical entries' :=
  ⟨(hperm.map Prod.fst).nodup_iff.mpr h.distinct, fun e he => h.keys e (hperm.mem_iff.mp he)⟩

/-! ## Parts by their written keys -/

theorem place?_paramKey (index : Nat) (part : Part) :
    place? (paramKey index part) = some ((index : Int), part) := by
  rw [place?_of_names (names_paramKey index part), indexOf, Numeral.valueOf_digitValues_digits]

/-- Among canonical keys only the written one names a part. -/
theorem IsCanonical.place?_iff (h : IsCanonical entries) {e : Text × Value} (he : e ∈ entries) :
    place? e.1 = some ((index : Int), part) ↔ e.1 = paramKey index part := by
  constructor
  · intro hplace
    rcases h.keys e he with ⟨index', part', -, hkey⟩ | hnone
    · rw [hkey, place?_paramKey, Option.some.injEq, Prod.mk.injEq, Int.natCast_inj] at hplace
      rw [hkey, hplace.1, hplace.2]
    · rw [place?_of_not_names hnone] at hplace
      cases hplace
  · intro hkey
    rw [hkey, place?_paramKey]

/-- **The last parameter for a part is the one with its written key.** -/
theorem IsCanonical.latest_eq_find? (h : IsCanonical entries) (index : Nat) (part : Part) :
    latest entries index part = Value.find? (paramKey index part) entries := by
  have hreversed : latest entries index part =
      Value.find? (paramKey index part) entries.reverse := by
    unfold latest Value.find?
    rw [List.find?_congr fun e he => ?_]
    rw [Bool.eq_iff_iff, beq_iff_eq, beq_iff_eq]
    exact h.place?_iff (List.mem_reverse.mp he)
  have hdistinct : (entries.reverse.map Prod.fst).Nodup := by
    rw [List.map_reverse, List.nodup_reverse]
    exact h.distinct
  rw [hreversed]
  refine Option.ext fun v => ?_
  rw [Value.find?_eq_some_iff hdistinct, Value.find?_eq_some_iff h.distinct, List.mem_reverse]

/-- The parts of the filter with an index, each under its written key. -/
def written (entries : Value.Entries) (index : Nat) : Parts :=
  ⟨index, Value.find? (paramKey index .field) entries,
    Value.find? (paramKey index .operator) entries, Value.find? (paramKey index .value) entries,
    Value.find? (paramKey index .sort) entries⟩

theorem IsCanonical.gathered_eq_written (h : IsCanonical entries) (index : Nat) :
    gathered entries index = written entries index := by
  simp only [gathered, written, h.latest_eq_find?]

theorem IsCanonical.written_perm (h : IsCanonical entries) (hperm : entries'.Perm entries) :
    written entries' = written entries := by
  have hfind : ∀ key, Value.find? key entries' = Value.find? key entries := by
    intro key
    refine Option.ext fun v => ?_
    rw [Value.find?_eq_some_iff (h.perm hperm).distinct, Value.find?_eq_some_iff h.distinct,
      hperm.mem_iff]
  funext index
  simp only [written, hfind]

/-! ## Collecting -/

/-- Canonical parameters are collected: by the indices that their keys name, in their order. -/
theorem IsCanonical.exists_indices (h : IsCanonical entries) :
    ∃ indices : List Nat, indices.Pairwise (· < ·) ∧
      (∀ index, index ∈ indices ↔ ∃ part, paramKey index part ∈ entries.map Prod.fst) ∧
      collect entries = .ok (indices.map (written entries)) := by
  have hshort : ∀ e ∈ entries, ¬ HasLongIndex e.1 := by
    rintro e he ⟨numeral, part, hnames, hlong⟩
    rcases h.keys e he with ⟨index, part', hindex, hkey⟩ | hnone
    · rw [hkey] at hnames
      rw [← (names_paramKey index part').unique hnames |>.1] at hlong
      exact absurd hindex (Nat.not_le.mpr hlong)
    · exact hnone numeral part hnames
  obtain ⟨parts, hparts⟩ := collect_succeeds_iff.mpr hshort
  obtain ⟨indices, hsorted, hmem, rfl⟩ := collected_of_collect hparts
  have hnatural : ∃ naturals : List Nat, indices = naturals.map Int.ofNat := by
    refine ⟨indices.map Int.toNat, ?_⟩
    rw [List.map_map]
    refine (List.map_id indices).symm.trans (List.map_congr_left fun index hindex => ?_)
    obtain ⟨e, -, part, hplace⟩ := (hmem index).mp hindex
    obtain ⟨named, -, hsame⟩ := Option.map_eq_some_iff.mp hplace
    rw [← (Prod.mk.inj hsame).1]
    rfl
  obtain ⟨indices, rfl⟩ := hnatural
  refine ⟨indices, ?_, fun index => ?_, ?_⟩
  · exact (List.pairwise_map.mp hsorted).imp fun hless => Int.ofNat_lt.mp hless
  · rw [← List.mem_map_of_injective Int.ofNat_injective]
    refine (hmem index).trans ⟨?_, ?_⟩
    · rintro ⟨e, he, part, hplace⟩
      exact ⟨part, (h.place?_iff he).mp hplace ▸ List.mem_map_of_mem he⟩
    · rintro ⟨part, hkey⟩
      obtain ⟨e, he, hkey⟩ := List.mem_map.mp hkey
      exact ⟨e, he, part, (h.place?_iff he).mpr hkey⟩
  · rw [hparts, List.map_map]
    exact congrArg _ (List.map_congr_left fun index _ => h.gathered_eq_written index)

/-- **What is collected does not depend on the order** of canonical parameters. -/
theorem collect_perm (h : IsCanonical entries) (hperm : entries'.Perm entries) :
    collect entries' = collect entries := by
  obtain ⟨indices, hsorted, hmem, hcollect⟩ := h.exists_indices
  obtain ⟨indices', hsorted', hmem', hcollect'⟩ := (h.perm hperm).exists_indices
  have hindices : indices' = indices := by
    refine hsorted'.eq_of_mem_iff hsorted fun index => ?_
    simp only [hmem, hmem', (hperm.map Prod.fst).mem_iff]
  rw [hcollect, hcollect', hindices, h.written_perm hperm]

/-! ## Reading -/

theorem isSome_find?_iff {key : Text} :
    (Value.find? key entries).isSome = true ↔ key ∈ entries.map Prod.fst := by
  rw [Value.find?, Option.isSome_map, List.find?_isSome, List.mem_map]
  simp only [beq_iff_eq]

/-- **Canonical parameters are read alike in every order.**  Whatever the order, the filters of the
query are those with a field and an operator, in the order of their indices and each from the
parameters with its index, be there gaps between the indices or not. -/
theorem ofParams_perm (c : Catalog) (separator : Separator) (h : IsCanonical entries)
    (hperm : entries'.Perm entries) :
    ofParams c separator entries' = ofParams c separator entries ∧
    ∀ q, ofParams c separator entries = .ok q →
      ∃ indices : List Nat, indices.Pairwise (· < ·) ∧
        (∀ index, index ∈ indices ↔
          paramKey index .field ∈ entries.map Prod.fst ∧
            paramKey index .operator ∈ entries.map Prod.fst) ∧
        List.Forall₂ (fun index f => ofParts c separator (written entries index) = .ok (some f))
          indices q.filters := by
  refine ⟨by rw [ofParams_eq, ofParams_eq, collect_perm h hperm], fun q hq => ?_⟩
  obtain ⟨indices, hsorted, hmem, hcollect⟩ := h.exists_indices
  rw [ofParams_eq, hcollect] at hq
  obtain ⟨parts, hparts, hq⟩ := of_bind_ok hq
  cases hparts
  obtain ⟨fs, hfs, hq⟩ := of_bind_ok hq
  cases hq
  let complete (index : Nat) : Bool :=
    (written entries index).field.isSome && (written entries index).operator.isSome
  have hread : List.Forall₂
      (fun index f => ofParts c separator (written entries index) = .ok (some f))
      (indices.filter complete) (fs.filterMap id) := by
    refine forall₂_filterMap (fun index f hf => ?_)
      (List.forall₂_map_left_iff.mp (mapM_ok_iff.mp hfs))
    have hsome := isSome_of_ofParts hf
    cases f with
    | none => exact .inl ⟨hsome.symm, rfl⟩
    | some f => exact .inr ⟨f, hsome.symm, rfl, hf⟩
  refine ⟨_, hsorted.filter _, fun index => ?_, hread⟩
  have hcomplete : complete index = true ↔ paramKey index .field ∈ entries.map Prod.fst ∧
      paramKey index .operator ∈ entries.map Prod.fst := by
    rw [Bool.and_eq_true]
    exact and_congr isSome_find?_iff isSome_find?_iff
  rw [List.mem_filter, hmem, hcomplete, and_iff_right_iff_imp]
  exact fun hkeys => ⟨.field, hkeys.1⟩

/-- Two cities and what belongs to no filter, the greater index first. -/
def cityCountryParams : Value.Entries :=
  [("filter_10_field", .text "city"), ("page", .text "2"), ("filter_10_operator", .text "equals"),
    ("filter_2_field", .text "country"), ("filter_3_operator", .text "equals"),
    ("filter_10_value", .text "Boston"), ("filter_2_operator", .text "equals"),
    ("filter_2_value", .text "USA")]

/-- The parameters of two filters and of an incomplete one between them, in the reverse order. -/
theorem ofParams_perm_cityCountry :
    ofParams Employees.catalog (.text ",") cityCountryParams.reverse = .ok
      (ofQueryFilters [⟨"country", .known .equals, .text "USA", none⟩,
        ⟨"city", .known .equals, .text "Boston", none⟩]) := by
  have hcanonical : IsCanonical cityCountryParams := by
    refine ⟨by decide +kernel, ?_⟩
    have hpage : ∀ numeral part, ¬ Names "page" numeral part := by
      intro numeral part hnames
      have hsplit := splitKey?_eq_some_iff.mpr hnames
      cases hsplit
    have hwritten : ∀ index < 11, ∀ part, IsWritten (paramKey index part) := by
      intro index hindex part
      refine ⟨index, part, ?_, rfl⟩
      have hshort : (Numeral.digits index).length ≤ 2 :=
        Numeral.length_digits_le (by decide) (by omega)
      exact Nat.le_trans hshort (by decide)
    intro e he
    simp only [cityCountryParams, List.mem_cons, List.not_mem_nil, or_false] at he
    rcases he with rfl | rfl | rfl | rfl | rfl | rfl | rfl | rfl
    · exact .inl (hwritten 10 (by decide) .field)
    · exact .inr hpage
    · exact .inl (hwritten 10 (by decide) .operator)
    · exact .inl (hwritten 2 (by decide) .field)
    · exact .inl (hwritten 3 (by decide) .operator)
    · exact .inl (hwritten 10 (by decide) .value)
    · exact .inl (hwritten 2 (by decide) .operator)
    · exact .inl (hwritten 2 (by decide) .value)
  rw [(ofParams_perm Employees.catalog (.text ",") hcanonical (List.reverse_perm _)).1]
  rfl

end Query

end Winnow

import Mathlib.Data.List.Induction
import Winnow.Proofs.Query.Params

/-!
# Parameters collected by filter

The parameters that name parts are collected by the index of their filter, in the order of the
indices, and the last one for each part counts.  Nothing else can go wrong than an index with too
many digits.

* `Query.HasLongIndex` : the numeral of a key has more digits than are converted;
* `Query.latest`, `Query.gathered` : the last parameter for a part, and all the parts of a filter;
* `Query.setPart_map` : what one more parameter changes;
* `Query.collect_succeeds_iff` : **parameters are collected** exactly if no index is too long;
* `Query.Collected.step`, `Query.collected_of_collect` : **what is collected** are the parts of the
  filters that keys name, in order, parameter by parameter.
-/

namespace Winnow

open Outcome

namespace Query

variable {key : Text} {entries : Value.Entries} {e : Text × Value} {index : Int} {part : Part}
  {v : Value}

/-- The numeral of a key has more digits than are converted. -/
def HasLongIndex (key : Text) : Prop :=
  ∃ numeral part, Names key numeral part ∧ Numeral.digitLimit < numeral.length

/-- The index and the part that a key names. -/
def place? (key : Text) : Option (Int × Part) :=
  (splitKey? key).map fun named => ((indexOf named.1 : Int), named.2)

/-- The last parameter for a part of the filter with an index. -/
def latest (entries : Value.Entries) (index : Int) (part : Part) : Option Value :=
  (entries.reverse.find? fun e => place? e.1 == some (index, part)).map Prod.snd

/-- The parts of the filter with an index. -/
def gathered (entries : Value.Entries) (index : Int) : Parts :=
  ⟨index, latest entries index .field, latest entries index .operator,
    latest entries index .value, latest entries index .sort⟩

theorem place?_of_names {numeral : Text} (h : Names key numeral part) :
    place? key = some ((indexOf numeral : Int), part) := by
  rw [place?, splitKey?_eq_some_iff.mpr h]
  rfl

theorem place?_of_not_names (h : ∀ numeral part, ¬ Names key numeral part) : place? key = none := by
  refine Option.map_eq_none_iff.mpr (Option.eq_none_iff_forall_ne_some.mpr fun named hnamed => ?_)
  exact h named.1 named.2 (splitKey?_eq_some_iff.mp hnamed)

/-! ## The last parameter -/

theorem latest_append_singleton (entries : Value.Entries) (e : Text × Value) (index : Int)
    (part : Part) : latest (entries ++ [e]) index part =
      if place? e.1 = some (index, part) then some e.2 else latest entries index part := by
  unfold latest
  rw [List.reverse_append, List.reverse_singleton, List.singleton_append]
  by_cases hplace : place? e.1 = some (index, part)
  · rw [List.find?_cons_of_pos (by simpa using hplace), if_pos hplace, Option.map_some]
  · rw [List.find?_cons_of_neg (by simpa using hplace), if_neg hplace]

theorem named_of_latest (h : latest entries index part = some v) :
    ∃ e ∈ entries, ∃ part, place? e.1 = some (index, part) := by
  obtain ⟨e, he, -⟩ := Option.map_eq_some_iff.mp h
  exact ⟨e, List.mem_reverse.mp (List.mem_of_find?_eq_some he), part,
    by simpa using List.find?_some he⟩

theorem gathered_append_of_ne (h : ∀ part, place? e.1 ≠ some (index, part)) :
    gathered (entries ++ [e]) index = gathered entries index := by
  simp only [gathered, latest_append_singleton, h, if_false]

theorem gathered_append_of_eq (h : place? e.1 = some (index, part)) :
    gathered (entries ++ [e]) index = (gathered entries index).set part e.2 := by
  cases part <;> simp [gathered, latest_append_singleton, h, Parts.set]

/-- Where no key names a part, none is read. -/
theorem gathered_of_forall_ne (h : ∀ e ∈ entries, ∀ part, place? e.1 ≠ some (index, part)) :
    gathered entries index = .none index := by
  have hlatest : ∀ part, latest entries index part = none := by
    intro part
    unfold latest
    rw [List.find?_eq_none.mpr fun e he => by simpa using h e (List.mem_reverse.mp he) part]
    rfl
  simp only [gathered, hlatest, Parts.none]

/-! ## One more parameter -/

/-- **What one more parameter changes**: the parts with its index, which may be new, and no
others. -/
theorem setPart_map {g g' : Int → Parts} (hindex : ∀ j, (g j).index = j)
    (hother : ∀ j, j ≠ index → g' j = g j) (hset : g' index = (g index).set part v)
    {indices : List Int} (hsorted : indices.Pairwise (· < ·))
    (hnew : index ∉ indices → g index = .none index) :
    ∃ indices' : List Int, indices'.Pairwise (· < ·) ∧
      (∀ j, j ∈ indices' ↔ j = index ∨ j ∈ indices) ∧
      setPart index part v (indices.map g) = indices'.map g' := by
  induction indices with
  | nil =>
    refine ⟨[index], List.pairwise_singleton _ _, fun j => by simp, ?_⟩
    rw [List.map_nil, setPart, List.map_singleton, hset, hnew List.not_mem_nil]
  | cons j js ih =>
    obtain ⟨hless, hrest⟩ := List.pairwise_cons.mp hsorted
    have hmap : ∀ {indices : List Int}, index ∉ indices → indices.map g' = indices.map g :=
      fun hmem => List.map_congr_left fun k hk => hother k fun hsame => hmem (hsame ▸ hk)
    rw [List.map_cons, setPart, hindex]
    rcases lt_trichotomy index j with hlt | rfl | hgt
    · have hmem : index ∉ j :: js := by
        intro hmem
        rcases List.mem_cons.mp hmem with rfl | hmem
        · omega
        · have := hless index hmem
          omega
      refine ⟨index :: j :: js, List.pairwise_cons.mpr ⟨?_, hsorted⟩, fun k => List.mem_cons, ?_⟩
      · intro k hk
        rcases List.mem_cons.mp hk with rfl | hk
        · exact hlt
        · exact hlt.trans (hless k hk)
      · rw [if_pos hlt, List.map_cons, hmap hmem, hset, hnew hmem, List.map_cons]
    · have hmem : index ∉ js := fun hmem => lt_irrefl _ (hless index hmem)
      refine ⟨index :: js, hsorted, fun k => by simp, ?_⟩
      rw [if_neg (lt_irrefl _), if_pos rfl, List.map_cons, hmap hmem, hset]
    · have hnew' : index ∉ js → g index = .none index := fun hmem =>
        hnew fun h => (List.mem_cons.mp h).elim (fun h => by omega) hmem
      obtain ⟨indices', hsorted', hmem', hset'⟩ := ih hrest hnew'
      refine ⟨j :: indices', List.pairwise_cons.mpr ⟨fun k hk => ?_, hsorted'⟩, fun k => ?_, ?_⟩
      · rcases (hmem' k).mp hk with rfl | hk
        · exact hgt
        · exact hless k hk
      · rw [List.mem_cons, hmem', List.mem_cons]
        exact or_left_comm
      · rw [if_neg (by omega), if_neg (by omega), hset', List.map_cons, hother j (by omega)]

/-! ## All parameters -/

theorem collectEntry_succeeds_iff (parts : List Parts) (e : Text × Value) :
    (∃ parts', collectEntry parts e = .ok parts') ↔ ¬ HasLongIndex e.1 := by
  by_cases hnames : ∃ numeral part, Names e.1 numeral part
  · obtain ⟨numeral, part, hnames⟩ := hnames
    have hlong : HasLongIndex e.1 ↔ Numeral.digitLimit < numeral.length := by
      constructor
      · rintro ⟨numeral', part', hnames', hlong⟩
        rwa [(hnames.unique hnames').1]
      · exact fun hlong => ⟨numeral, part, hnames, hlong⟩
    rw [collectEntry_of_names hnames, hlong]
    split
    · rename_i hlong
      exact iff_of_false nofun fun hshort => hshort hlong
    · rename_i hshort
      exact iff_of_true ⟨_, rfl⟩ hshort
  · have hnone : ∀ numeral part, ¬ Names e.1 numeral part :=
      fun numeral part h => hnames ⟨numeral, part, h⟩
    rw [collectEntry_of_not_names hnone]
    exact iff_of_true ⟨_, rfl⟩ fun ⟨numeral, part, h, _⟩ => hnone numeral part h

/-- **Parameters are collected** exactly if no index is too long. -/
theorem collect_succeeds_iff :
    (∃ parts, collect entries = .ok parts) ↔ ∀ e ∈ entries, ¬ HasLongIndex e.1 :=
  foldlM_succeeds_iff collectEntry_succeeds_iff

/-- The parts of the filters that the keys of some parameters name, in the order of their
indices. -/
def Collected (entries : Value.Entries) (parts : List Parts) : Prop :=
  ∃ indices : List Int, indices.Pairwise (· < ·) ∧
    (∀ index, index ∈ indices ↔ ∃ e ∈ entries, ∃ part, place? e.1 = some (index, part)) ∧
    parts = indices.map (gathered entries)

variable {parts : List Parts}

/-- A parameter that names nothing adds nothing. -/
theorem Collected.pass (h : Collected entries parts) (hplace : place? e.1 = none) :
    Collected (entries ++ [e]) parts := by
  obtain ⟨indices, hsorted, hmem, rfl⟩ := h
  refine ⟨indices, hsorted, fun index => ?_, ?_⟩
  · simp [hmem, or_and_right, exists_or, hplace]
  · refine List.map_congr_left fun index _ => (gathered_append_of_ne fun part hsame => ?_).symm
    rw [hplace] at hsame
    cases hsame

/-- A parameter that names a part sets it. -/
theorem Collected.set (h : Collected entries parts) (hplace : place? e.1 = some (index, part)) :
    Collected (entries ++ [e]) (setPart index part e.2 parts) := by
  obtain ⟨indices, hsorted, hmem, rfl⟩ := h
  have hother : ∀ j, j ≠ index → gathered (entries ++ [e]) j = gathered entries j := by
    intro j hj
    refine gathered_append_of_ne fun part' hsame => hj ?_
    rw [hplace, Option.some.injEq, Prod.mk.injEq] at hsame
    exact hsame.1.symm
  have hnew : index ∉ indices → gathered entries index = .none index := fun hnew =>
    gathered_of_forall_ne fun e' he' part' hsame => hnew ((hmem index).mpr ⟨e', he', part', hsame⟩)
  obtain ⟨indices', hsorted', hmem', hset⟩ := setPart_map (fun j => rfl) hother
    (gathered_append_of_eq hplace) hsorted hnew
  refine ⟨indices', hsorted', fun j => ?_, hset⟩
  rw [hmem', hmem]
  simp only [List.mem_append, List.mem_singleton, or_and_right, exists_or, exists_eq_left, hplace,
    Option.some.injEq, Prod.mk.injEq, exists_eq_right']
  exact or_comm.trans (or_congr_right eq_comm)

/-- **One more parameter** is collected with those before it. -/
theorem Collected.step {parts' : List Parts} (h : Collected entries parts)
    (hstep : collectEntry parts e = .ok parts') : Collected (entries ++ [e]) parts' := by
  by_cases hnames : ∃ numeral part, Names e.1 numeral part
  · obtain ⟨numeral, part, hnames⟩ := hnames
    rw [collectEntry_of_names hnames] at hstep
    split at hstep
    · cases hstep
    · cases hstep
      exact h.set (place?_of_names hnames)
  · have hnone : ∀ numeral part, ¬ Names e.1 numeral part :=
      fun numeral part h => hnames ⟨numeral, part, h⟩
    rw [collectEntry_of_not_names hnone] at hstep
    cases hstep
    exact h.pass (place?_of_not_names hnone)

/-- **What is collected** are the parts of the filters that keys name, in the order of their
indices. -/
theorem collected_of_collect (h : collect entries = .ok parts) :
    Collected entries parts := by
  rw [collect_eq] at h
  induction entries using List.reverseRecOn generalizing parts with
  | nil =>
    cases h
    exact ⟨[], List.Pairwise.nil, fun index => iff_of_false nofun nofun, rfl⟩
  | append_singleton entries e ih =>
    rw [List.foldlM_append] at h
    obtain ⟨before, hbefore, h⟩ := of_bind_ok h
    rw [List.foldlM_cons] at h
    obtain ⟨last, hlast, h⟩ := of_bind_ok h
    cases h
    exact (ih hbefore).step hlast

end Query

end Winnow

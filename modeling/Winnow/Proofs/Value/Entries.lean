import Mathlib.Data.List.Nodup
import Winnow.Value

/-!
# The entries of an object

* `Value.find?_eq_some_iff` : among distinct keys, the value of a key is the one that stands beside
  it;
* `Value.find?_insert_of_ne`, `Value.find?_insert_self` : an entry that is put in between gives the
  value of its key and of no other;
* `Value.find?_put`, `Value.nodup_put` : writing the value of a key changes that value and no other,
  and keys stay distinct;
* `Value.find?_foldl_put`, `Value.nodup_foldl_put` : the same for writing all of an object.
-/

namespace Winnow.Value

variable {key name : Text} {v : Value} {entries base before after : Entries}

theorem find?_cons (e : Text × Value) (entries : Entries) (name : Text) :
    find? name (e :: entries) = if e.1 = name then some e.2 else find? name entries := by
  unfold find?
  by_cases hkey : e.1 = name
  · rw [List.find?_cons_of_pos (by simpa using hkey), if_pos hkey, Option.map_some]
  · rw [List.find?_cons_of_neg (by simpa using hkey), if_neg hkey]

theorem find?_append (name : Text) (before after : Entries) :
    find? name (before ++ after) = (find? name before).or (find? name after) := by
  unfold find?
  rw [List.find?_append]
  cases before.find? fun e => e.1 == name <;> rfl

theorem find?_eq_none (h : ∀ e ∈ entries, e.1 ≠ key) : find? key entries = none := by
  unfold find?
  rw [List.find?_eq_none.mpr fun e he => by simpa using h e he]
  rfl

/-- An entry makes no difference to the values of other keys. -/
theorem find?_insert_of_ne (h : key ≠ name) :
    find? name (before ++ (key, v) :: after) = find? name (before ++ after) := by
  rw [find?_append, find?_append, find?_cons, if_neg h]

/-- A key that was missing has the value that is put beside it. -/
theorem find?_insert_self (h : ∀ e ∈ before, e.1 ≠ key) :
    find? key (before ++ (key, v) :: after) = some v := by
  rw [find?_append, find?_eq_none h, find?_cons, if_pos rfl, Option.none_or]

/-- In an object with distinct keys the value of a key is the one that stands beside it. -/
theorem find?_eq_some_iff (h : (entries.map Prod.fst).Nodup) :
    find? key entries = some v ↔ (key, v) ∈ entries := by
  induction entries with
  | nil => exact iff_of_false nofun nofun
  | cons e es ih =>
    rw [List.map_cons, List.nodup_cons] at h
    rw [find?_cons, List.mem_cons, ← ih h.2]
    by_cases hkey : e.1 = key
    · have hrest : find? key es ≠ some v := fun hfind =>
        h.1 (hkey ▸ List.mem_map_of_mem ((ih h.2).mp hfind))
      simp only [hkey, if_true, Option.some.injEq, hrest, or_false]
      exact ⟨fun hv => Prod.ext hkey.symm hv.symm, fun he => (congrArg Prod.snd he).symm⟩
    · have hother : (key, v) ≠ e := fun he => hkey (congrArg Prod.fst he).symm
      simp only [hkey, if_false, hother, false_or]

/-- Writing the value of a key changes that value and no other. -/
theorem find?_put (key : Text) (v : Value) (entries : Entries) (name : Text) :
    find? name (put key v entries) = if key = name then some v else find? name entries := by
  induction entries with
  | nil => rw [put, find?_cons]
  | cons e es ih =>
    rw [put, find?_cons]
    split
    · rename_i hsame
      rw [find?_cons, hsame]
      split <;> rfl
    · rename_i hother
      rw [find?_cons, ih]
      by_cases hname : e.1 = name
      · rw [if_pos hname, if_pos hname, if_neg fun heq => hother (hname.trans heq.symm)]
      · rw [if_neg hname, if_neg hname]

theorem mem_put {e : Text × Value} (he : e ∈ put key v entries) : e = (key, v) ∨ e ∈ entries := by
  induction entries with
  | nil => simpa [put] using he
  | cons f fs ih =>
    simp only [put] at he
    split at he
    · rcases List.mem_cons.mp he with rfl | he
      · exact .inl rfl
      · exact .inr (List.mem_cons_of_mem f he)
    · rcases List.mem_cons.mp he with rfl | he
      · exact .inr List.mem_cons_self
      · exact (ih he).imp_right (List.mem_cons_of_mem f)

theorem mem_keys_put : name ∈ (put key v entries).map Prod.fst → name = key ∨
    name ∈ entries.map Prod.fst := by
  induction entries with
  | nil =>
    intro h
    exact .inl (List.mem_singleton.mp h)
  | cons e es ih =>
    rw [put]
    split
    · intro h
      rcases List.mem_cons.mp h with h | h
      · exact .inl h
      · exact .inr (List.mem_cons_of_mem _ h)
    · intro h
      rcases List.mem_cons.mp h with h | h
      · exact .inr (List.mem_cons.mpr (.inl h))
      · exact (ih h).imp_right (List.mem_cons_of_mem _)

/-- Keys stay distinct when the value of one is written. -/
theorem nodup_put (h : (entries.map Prod.fst).Nodup) (key : Text) (v : Value) :
    ((put key v entries).map Prod.fst).Nodup := by
  induction entries with
  | nil => exact List.nodup_singleton key
  | cons e es ih =>
    obtain ⟨hnew, hrest⟩ := List.nodup_cons.mp h
    rw [put]
    split
    · rename_i hsame
      exact List.nodup_cons.mpr ⟨hsame ▸ hnew, hrest⟩
    · rename_i hother
      refine List.nodup_cons.mpr ⟨fun hmem => ?_, ih hrest⟩
      exact (mem_keys_put hmem).elim hother hnew

/-- Writing all of an object replaces the values of its keys. -/
theorem find?_foldl_put (h : (entries.map Prod.fst).Nodup) (base : Entries) (name : Text) :
    find? name (entries.foldl (fun es e => put e.1 e.2 es) base) =
      (find? name entries).or (find? name base) := by
  induction entries generalizing base with
  | nil => rfl
  | cons e es ih =>
    obtain ⟨hnew, hrest⟩ := List.nodup_cons.mp h
    rw [List.foldl_cons, ih hrest, find?_put, find?_cons]
    by_cases hname : e.1 = name
    · have hnone : find? name es = none := by
        refine Option.eq_none_iff_forall_ne_some.mpr fun v hfind => hnew ?_
        exact hname ▸ List.mem_map_of_mem ((find?_eq_some_iff hrest).mp hfind)
      rw [if_pos hname, if_pos hname, hnone]
      rfl
    · rw [if_neg hname, if_neg hname]

theorem nodup_foldl_put (h : (base.map Prod.fst).Nodup) (entries : Entries) :
    ((entries.foldl (fun es e => put e.1 e.2 es) base).map Prod.fst).Nodup := by
  induction entries generalizing base with
  | nil => exact h
  | cons e es ih => exact ih (nodup_put h e.1 e.2)

end Winnow.Value

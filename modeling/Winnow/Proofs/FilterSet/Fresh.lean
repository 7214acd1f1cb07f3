import Mathlib.Data.List.Nodup
import Mathlib.Data.List.Perm.Subperm
import Mathlib.Tactic.ByContra
import Mathlib.Tactic.Push
import Winnow.FilterSet.Token

/-!
# Fresh ids are fresh

The id of a new filter is made of a token, and tokens that make an issued id are passed over.

* `Tokens.counted_injective` : different counts have different tokens;
* `Tokens.freshCount_spec` : among one count more than there are issued ids, one makes a new id;
* `Tokens.fresh_not_mem` : whatever tokens are given, the next id was not issued before.
-/

namespace Winnow

/-! ## The tokens of counts -/

theorem CodePoint.hexValue?_digitChar :
    ∀ d < 16, (CodePoint.scalar (Nat.digitChar d)).hexValue? = some d := by decide

theorem Text.ofChars_injective : Function.Injective Text.ofChars :=
  List.map_injective_iff.mpr fun _ _ h => CodePoint.scalar.inj h

namespace Tokens

/-- The value of hexadecimal digits that are appended to a number. -/
def hexValueOf (n : Nat) (cs : List Char) : Nat :=
  cs.foldl (fun v c => 16 * v + (CodePoint.scalar c).hexValue?.getD 0) n

theorem hexValueOf_append (n : Nat) (cs ds : List Char) :
    hexValueOf n (cs ++ ds) = hexValueOf (hexValueOf n cs) ds := List.foldl_append

theorem hexValueOf_toDigits (n : Nat) : hexValueOf 0 (Nat.toDigits 16 n) = n := by
  induction n using Nat.strongRecOn with
  | ind n ih =>
    by_cases hn : n < 16
    · rw [Nat.toDigits_of_lt_base hn]
      simp [hexValueOf, CodePoint.hexValue?_digitChar n hn]
    · rw [Nat.toDigits_of_base_le (by decide) (by omega), hexValueOf_append, ih (n / 16) (by omega)]
      simp only [hexValueOf, List.foldl_cons, List.foldl_nil,
        CodePoint.hexValue?_digitChar (n % 16) (by omega), Option.getD_some]
      omega

theorem hexValueOf_zeros (k : Nat) : hexValueOf 0 (List.replicate k '0') = 0 := by
  induction k with
  | zero => rfl
  | succ k ih => rw [List.replicate_succ]; exact ih

theorem counted_injective : Function.Injective counted := by
  intro m n h
  have hchars := congrArg (hexValueOf 0) (Text.ofChars_injective h)
  simpa only [hexValueOf_append, hexValueOf_zeros, hexValueOf_toDigits] using hchars

theorem candidate_injective (definitionId : Text) : Function.Injective (candidate definitionId) := by
  intro s t h
  exact (List.cons.inj (List.append_cancel_left h)).2

/-! ## Fresh ids -/

/-- Some count among one more than there are issued ids makes an id that was not issued: otherwise
the different ids of so many counts would all be issued. -/
theorem exists_unissued (definitionId : Text) (issued : List Text) (counter : Nat) :
    ∃ n ∈ (List.range (issued.length + 1)).map (counter + 1 + ·),
      candidate definitionId (counted n) ∉ issued := by
  by_contra hnone
  push Not at hnone
  let ids := ((List.range (issued.length + 1)).map (counter + 1 + ·)).map fun n =>
    candidate definitionId (counted n)
  have hdistinct : ids.Nodup := by
    have hcounts : Function.Injective (counter + 1 + ·) := fun a b h => by simpa using h
    exact (List.Nodup.map hcounts List.nodup_range).map
      ((candidate_injective definitionId).comp counted_injective)
  have hsubset : ids ⊆ issued := by
    intro id hid
    obtain ⟨n, hn, rfl⟩ := List.mem_map.mp hid
    exact hnone n hn
  have hle := (List.subperm_of_subset hdistinct hsubset).length_le
  simp only [ids, List.length_map, List.length_range] at hle
  omega

theorem freshCount_spec (definitionId : Text) (issued : List Text) (counter : Nat) :
    candidate definitionId (counted (freshCount definitionId issued counter)) ∉ issued := by
  obtain ⟨n, hn, hfree⟩ := exists_unissued definitionId issued counter
  have hsome : (((List.range (issued.length + 1)).map (counter + 1 + ·)).find? fun n =>
      !issued.contains (candidate definitionId (counted n))).isSome :=
    List.find?_isSome.mpr ⟨n, hn, by simpa using hfree⟩
  obtain ⟨k, hk⟩ := Option.isSome_iff_exists.mp hsome
  have hfree := List.find?_some hk
  simp only [freshCount, hk, Option.getD_some]
  simpa using hfree

theorem freshFrom_not_mem (definitionId : Text) (issued : List Text) (counter : Nat) :
    ∀ given, (freshFrom definitionId issued counter given).1 ∉ issued
  | [] => freshCount_spec definitionId issued counter
  | token :: given => by
    simp only [freshFrom]
    split
    · exact freshFrom_not_mem definitionId issued counter given
    · rename_i hfree
      simpa using hfree

/-- **The next id was not issued before**, whatever tokens are still to come. -/
theorem fresh_not_mem (definitionId : Text) (issued : List Text) (tokens : Tokens) :
    (tokens.fresh definitionId issued).1 ∉ issued :=
  freshFrom_not_mem definitionId issued tokens.counter tokens.given

end Tokens

end Winnow

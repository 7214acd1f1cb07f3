import Winnow.Filter
import Winnow.Proofs.Outcome

/-!
# Directions by their words

The direction of a filter may have been set by hand, as a text.  It counts as that of the vocabulary
whose word it is.

* `Filter.SortingNamed` : the direction is absent or has a word of the vocabulary;
* `Filter.direction?` : the direction of the vocabulary that a filter has;
* `Sorting.direction_of_word`, `Sorting.word_of_direction` : it is found by its word.
-/

namespace Winnow

theorem Direction.ofText?_word (d : Direction) : Direction.ofText? d.word = some d := by
  cases d with
  | ascending => rfl
  | descending => decide

/-- A direction is found by its word, however it was set. -/
theorem Sorting.direction_of_word {s : Sorting} {d : Direction} (h : s.word = d.word) :
    s.direction = .ok d := by
  cases s with
  | «by» d' =>
    have hsame : some d' = some d := by
      rw [← Direction.ofText?_word d', ← Direction.ofText?_word d]
      exact congrArg _ h
    exact congrArg Except.ok (Option.some.inj hsame)
  | written t =>
    have hword : t = d.word := h
    unfold Sorting.direction Direction.ofValue
    dsimp only
    rw [hword, Direction.ofText?_word]

/-- Only by its word is it found. -/
theorem Sorting.word_of_direction {s : Sorting} {d : Direction} (h : s.direction = .ok d) :
    s.word = d.word := by
  cases s with
  | «by» d' =>
    cases h
    rfl
  | written t =>
    have htext : Direction.ofText? t = some d := by
      unfold Sorting.direction Direction.ofValue at h
      dsimp only at h
      split at h
      · rename_i found hfound
        cases h
        exact hfound
      · cases h
    show t = d.word
    unfold Direction.ofText? at htext
    split at htext
    · rename_i hword
      cases htext
      exact hword
    · split at htext
      · rename_i hword
        cases htext
        exact hword
      · cases htext

/-- A value stands for a direction exactly if it is its word. -/
theorem Direction.ofValue_eq_ok_iff {v : Value} {direction : Direction} :
    Direction.ofValue v = .ok direction ↔ v = .text direction.word := by
  constructor
  · intro h
    cases v with
    | text t => exact congrArg Value.text (Sorting.word_of_direction (s := .written t) h)
    | _ =>
      obtain ⟨_, _, h⟩ := Outcome.of_bind_ok h
      cases h
  · rintro rfl
    exact Sorting.direction_of_word (s := .written direction.word) rfl

namespace Filter

/-- The direction of a filter is absent or that of a word of the vocabulary. -/
def SortingNamed (f : Filter) : Prop :=
  f.sorting = none ∨ ∃ d : Direction, f.sorting.map Sorting.word = some d.word

/-- The direction of the vocabulary that a filter has. -/
def direction? (f : Filter) : Option Direction := f.sorting.bind fun s => Direction.ofText? s.word

/-- A filter has no direction, or one that is found and has the word of its own. -/
theorem SortingNamed.cases {f : Filter} (h : f.SortingNamed) :
    (f.sorting = none ∧ f.direction? = none) ∨
      ∃ s d, f.sorting = some s ∧ s.word = d.word ∧ s.direction = .ok d ∧
        f.direction? = some d := by
  unfold direction?
  rcases h with hnone | ⟨d, hword⟩
  · exact .inl ⟨hnone, by rw [hnone]; rfl⟩
  · obtain ⟨s, hsorting, hword⟩ := Option.map_eq_some_iff.mp hword
    refine .inr ⟨s, d, hsorting, hword, Sorting.direction_of_word hword, ?_⟩
    rw [hsorting, Option.bind_some, hword, Direction.ofText?_word]

end Filter

end Winnow

import Winnow.Text

/-!
# Similar texts

Two texts are compared by what they have in common: their longest common part, and on both sides of
it the longest common parts again.

* `Text.common`: the number of code points that two texts have in common.
* `Text.resembles`: whether at least three fifths of the code points of two texts are common.
-/

namespace Winnow.Text

/-- The length of the common beginning of two texts. -/
def commonBeginning : Text → Text → Nat
  | a :: as, b :: bs => if a = b then commonBeginning as bs + 1 else 0
  | _, _ => 0

/-- A part that two texts have in common: where it begins in each, and its length. -/
structure Block where
  left : Nat
  right : Nat
  width : Nat

/-- The longer of two blocks, of equals the first. -/
def Block.longer (b c : Block) : Block := if b.width < c.width then c else b

/-- The common parts of two texts as far as they begin at given places and reach furthest. -/
def blocks (a b : Text) : List Block :=
  (List.range a.length).flatMap fun i =>
    (List.range b.length).map fun j => ⟨i, j, commonBeginning (a.drop i) (b.drop j)⟩

/-- The longest common part of two texts, of several the one that begins first. -/
def longestBlock (a b : Text) : Block := (blocks a b).foldl Block.longer ⟨0, 0, 0⟩

/-- The number of code points that two texts have in common. -/
def common (a b : Text) : Nat :=
  match longestBlock a b with
  | ⟨left, right, width⟩ =>
    if _ : 0 < width ∧ left + width ≤ a.length then
      common (a.take left) (b.take right) + width +
        common (a.drop (left + width)) (b.drop (right + width))
    else 0
termination_by a.length
decreasing_by
  · simp only [List.length_take]; omega
  · simp only [List.length_drop]; omega

/-- Whether a number of common code points is at least three fifths of the mean length of two texts.
-/
def isMost (a b : Text) (n : Nat) : Bool := 3 * (a.length + b.length) ≤ 10 * n

/-- Whether at least three fifths of the code points of two texts are common.  No more than the
shorter one can be. -/
def resembles (a b : Text) : Bool :=
  isMost a b (min a.length b.length) && isMost a b (common a b)

end Winnow.Text

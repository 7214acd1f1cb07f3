import Mathlib.Data.List.Infix
import Winnow.Text.Lowercase

/-!
# The lower case form of a piece of a text

The lower case form of a text is made of those of its code points, each on its own but for the
capital sigma: what stands around a sigma decides whether it takes the form that ends a word.  So a
piece of a text keeps its lower case form exactly if the rest of the text does not change this
decision for any sigma of the piece.

* `Text.endsWord` : whether a sigma between two texts ends a word;
* `Text.lowerBetween`, `Text.lowerAfter_append` : the lower case form of a piece between two others;
* `Text.Settled` : what stands around a piece changes none of its sigmas;
* `Text.lowerBetween_eq_lower_iff` : that is so exactly if the piece keeps its lower case form;
* `Text.isPrefixOf_lower_append`, `Text.isSuffixOf_lower_append` : the form of a piece at an end;
* `Text.occursIn_iff`, `Text.occursIn_lower_iff` : the form of a piece within a text.
-/

namespace Winnow.Text

/-- Whether a capital sigma ends a word, between what stands before it, in reverse, and what stands
after it. -/
def endsWord (before after : Text) : Bool := startsCased before && !startsCased after

/-- The lower case form of a code point between what stands before it, in reverse, and what stands
after it. -/
def lowerAt (before : Text) (c : CodePoint) (after : Text) : Text :=
  if c = .scalar 'Σ' then if endsWord before after then [.scalar 'ς'] else [.scalar 'σ']
  else c.lower

/-- The lower case form of a piece of a text between what stands before it, in reverse, and what
stands after it. -/
def lowerBetween (before : Text) : Text → Text → Text
  | [], _ => []
  | c :: cs, after => lowerAt before c (cs ++ after) ++ lowerBetween (c :: before) cs after

/-- Every capital sigma of a piece ends a word of the piece alone exactly if it ends one where the
piece stands between two others. -/
def Settled (before piece after : Text) : Prop :=
  ∀ s t, piece = s ++ .scalar 'Σ' :: t →
    endsWord s.reverse t = endsWord (before ++ s).reverse (t ++ after)

/-! ## Pieces -/

theorem lowerAfter_cons (before : Text) (c : CodePoint) (cs : Text) :
    lowerAfter before (c :: cs) = lowerAt before c cs ++ lowerAfter (c :: before) cs := by
  rw [lowerAfter]
  rfl

/-- **The lower case form of a text is made of those of its pieces.** -/
theorem lowerAfter_append (before s t : Text) :
    lowerAfter before (s ++ t) = lowerBetween before s t ++ lowerAfter (s.reverse ++ before) t := by
  induction s generalizing before with
  | nil => rfl
  | cons c cs ih =>
    rw [List.cons_append, lowerAfter_cons, ih, lowerBetween, List.reverse_cons, List.append_assoc,
      List.append_assoc, List.singleton_append]

theorem lowerAfter_eq (before t : Text) : lowerAfter before t = lowerBetween before t [] := by
  have happend := lowerAfter_append before t []
  rwa [List.append_nil, lowerAfter, List.append_nil] at happend

/-- What stands around a piece does not change how long its lower case form is. -/
theorem length_lowerAt (before before' : Text) (c : CodePoint) (after after' : Text) :
    (lowerAt before c after).length = (lowerAt before' c after').length := by
  unfold lowerAt
  split
  · split <;> split <;> rfl
  · rfl

theorem length_lowerBetween (before before' s after after' : Text) :
    (lowerBetween before s after).length = (lowerBetween before' s after').length := by
  induction s generalizing before before' with
  | nil => rfl
  | cons c cs ih =>
    rw [lowerBetween, lowerBetween, List.length_append, List.length_append,
      length_lowerAt before before', ih]

theorem length_lowerBetween_lower (before s after : Text) :
    (lowerBetween before s after).length = s.lower.length := by
  rw [lower, lowerAfter_eq]
  exact length_lowerBetween _ _ _ _ _

/-! ## Settled pieces -/

theorem lowerAt_eq_iff {before before' : Text} {c : CodePoint} {after after' : Text} :
    lowerAt before c after = lowerAt before' c after' ↔
      (c = .scalar 'Σ' → endsWord before after = endsWord before' after') := by
  unfold lowerAt
  split
  · rename_i hsigma
    rw [forall_prop_of_true hsigma]
    cases endsWord before after <;> cases endsWord before' after' <;> decide
  · rename_i hsigma
    simp [hsigma]

/-- What holds wherever a piece is parted at a code point holds at its head and in its tail. -/
theorem forall_parted_cons {c d : CodePoint} {cs : Text} {P : Text → Text → Prop} :
    (∀ s t, c :: cs = s ++ d :: t → P s t) ↔
      (c = d → P [] cs) ∧ ∀ s t, cs = s ++ d :: t → P (c :: s) t := by
  constructor
  · intro h
    refine ⟨fun hc => h [] cs (by rw [hc, List.nil_append]), fun s t hcs => h (c :: s) t ?_⟩
    rw [hcs, List.cons_append]
  · rintro ⟨hhead, htail⟩ s t hparted
    rcases List.cons_eq_append_iff.mp hparted with ⟨rfl, hcons⟩ | ⟨s, rfl, hcs⟩
    · obtain ⟨rfl, rfl⟩ := List.cons.inj hcons
      exact hhead rfl
    · exact htail s t hcs

/-- The induction is on the piece, where some of it, in reverse, has been passed already. -/
theorem lowerBetween_eq_iff (passed before piece after : Text) :
    lowerBetween passed piece [] = lowerBetween (passed ++ before) piece after ↔
      ∀ s t, piece = s ++ .scalar 'Σ' :: t →
        endsWord (s.reverse ++ passed) t =
          endsWord (s.reverse ++ (passed ++ before)) (t ++ after) := by
  induction piece generalizing passed with
  | nil => simp [lowerBetween]
  | cons c cs ih =>
    have hlength := length_lowerAt passed (passed ++ before) c (cs ++ []) (cs ++ after)
    rw [lowerBetween, lowerBetween, List.append_eq_append_iff_of_size_eq_left hlength,
      lowerAt_eq_iff, forall_parted_cons, List.append_nil, ← List.cons_append, ih]
    simp only [List.reverse_cons, List.append_assoc, List.reverse_nil, List.nil_append,
      List.cons_append]

/-- **A piece of a text keeps its lower case form exactly if the rest changes none of its capital
sigmas.** -/
theorem lowerBetween_eq_lower_iff {before piece after : Text} :
    lowerBetween before.reverse piece after = lower piece ↔ Settled before piece after := by
  rw [lower, lowerAfter_eq, eq_comm]
  refine (lowerBetween_eq_iff [] before.reverse piece after).trans ?_
  unfold Settled
  simp only [List.append_nil, List.nil_append, List.reverse_append]

instance (before piece after : Text) : Decidable (Settled before piece after) :=
  decidable_of_iff _ lowerBetween_eq_lower_iff

/-- A text without a capital sigma has one lower case form. -/
theorem settled_of_not_mem {piece : Text} (h : .scalar 'Σ' ∉ piece) (before after : Text) :
    Settled before piece after := by
  intro s t hpiece
  rw [hpiece] at h
  exact absurd (List.mem_append_right s List.mem_cons_self) h

/-! ## Whole texts -/

/-- The lower case form of a text is made of those of its pieces, each between the others. -/
theorem lower_append (s t : Text) :
    lower (s ++ t) = lowerBetween [] s t ++ lowerBetween s.reverse t [] := by
  rw [lower, lowerAfter_append, List.append_nil, lowerAfter_eq]

theorem lower_append_append (s t u : Text) :
    lower (s ++ t ++ u) = lowerBetween [] s (t ++ u) ++
      (lowerBetween s.reverse t u ++ lowerBetween (s ++ t).reverse u []) := by
  rw [List.append_assoc, lower, lowerAfter_append, lowerAfter_append, lowerAfter_eq,
    List.append_nil, List.reverse_append]

/-- **A text is found at the beginning regardless of case exactly if what follows settles it.** -/
theorem isPrefixOf_lower_append (s t : Text) :
    s.lower.isPrefixOf (s ++ t).lower = decide (Settled [] s t) := by
  have htake : (s ++ t).lower.take s.lower.length = lowerBetween [] s t := by
    rw [lower_append, List.take_left' (length_lowerBetween_lower [] s t)]
  rw [Bool.eq_iff_iff, List.isPrefixOf_iff_prefix, decide_eq_true_iff, ← lowerBetween_eq_lower_iff,
    List.prefix_iff_eq_take, htake, eq_comm]
  rfl

/-- **A text is found at the end regardless of case exactly if what comes before settles it.** -/
theorem isSuffixOf_lower_append (s t : Text) :
    t.lower.isSuffixOf (s ++ t).lower = decide (Settled s t []) := by
  have hlength : (s ++ t).lower.length - t.lower.length = (lowerBetween [] s t).length := by
    rw [lower_append, List.length_append, length_lowerBetween_lower s.reverse t [],
      Nat.add_sub_cancel]
  rw [Bool.eq_iff_iff, List.isSuffixOf_iff_suffix, decide_eq_true_iff, ← lowerBetween_eq_lower_iff,
    List.suffix_iff_eq_drop, hlength, lower_append, List.drop_left, eq_comm]

/-- A text occurs in another if it is a contiguous part of it. -/
theorem occursIn_iff {part whole : Text} : occursIn part whole = true ↔ part <:+: whole := by
  induction whole with
  | nil => rw [occursIn, List.isEmpty_iff, List.infix_nil]
  | cons c cs ih =>
    rw [occursIn, Bool.or_eq_true, List.isPrefixOf_iff_prefix, ih, List.infix_cons_iff]

/-- **A piece of a text is found regardless of case exactly if the rest settles it**, or if its
lower case form stands elsewhere in that of the text. -/
theorem occursIn_lower_iff (s t u : Text) :
    t.lower.occursIn (s ++ t ++ u).lower = true ↔
      Settled s t u ∨ ∃ before after, (s ++ t ++ u).lower = before ++ t.lower ++ after ∧
        before.length ≠ s.lower.length := by
  rw [occursIn_iff]
  constructor
  · rintro ⟨before, after, hwhole⟩
    by_cases hplace : before.length = s.lower.length
    · have hsame : before.length = (lowerBetween [] s (t ++ u)).length := by
        rw [hplace, length_lowerBetween_lower [] s (t ++ u)]
      rw [lower_append_append, List.append_assoc] at hwhole
      have hrest := (List.append_inj hwhole hsame).2
      have hpiece := (List.append_inj hrest (length_lowerBetween_lower s.reverse t u).symm).1
      exact .inl (lowerBetween_eq_lower_iff.mp hpiece.symm)
    · exact .inr ⟨before, after, hwhole.symm, hplace⟩
  · rintro (hsettled | ⟨before, after, hwhole, -⟩)
    · refine ⟨lowerBetween [] s (t ++ u), lowerBetween (s ++ t).reverse u [], ?_⟩
      rw [lower_append_append, lowerBetween_eq_lower_iff.mpr hsettled, List.append_assoc]
    · exact ⟨before, after, hwhole.symm⟩

end Winnow.Text

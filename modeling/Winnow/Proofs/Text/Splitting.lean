import Winnow.Text

/-!
# Cutting texts at one code point

A text that was joined from pieces without the separator is cut into them again.

* `Text.splitOn_ne_nil` : cutting a text gives at least one piece;
* `Text.splitOn_singleton`, `Text.occursIn_singleton` : cutting at a code point and looking for it;
* `Text.splitOn_intercalate` : pieces without the separator are found again;
* `Text.intercalate_splitOn`, `Text.not_mem_of_mem_splitOn` : the pieces of a text make up the text, and
  they are without the separator;
* `Text.sublist_intercalate` : leaving pieces out leaves a part of the text;
* `Text.mem_intercalate` : at least two pieces bring the separator in.
-/

namespace Winnow.Text

theorem splitAfter_ne_nil (separator : Text) (skip : Nat) (t : Text) :
    splitAfter separator skip t ≠ [] := by
  induction t generalizing skip with
  | nil => exact List.cons_ne_nil _ _
  | cons c cs ih =>
    cases skip with
    | succ skip => exact ih skip
    | zero =>
      rw [splitAfter]
      split
      · exact List.cons_ne_nil _ _
      · unfold consFirst
        split <;> exact List.cons_ne_nil _ _

theorem splitOn_ne_nil (separator t : Text) : splitOn separator t ≠ [] :=
  splitAfter_ne_nil separator 0 t

/-- Cutting at a separator of one code point is cutting a list at an element. -/
theorem splitOn_singleton (separator : CodePoint) (t : Text) :
    splitOn [separator] t = List.splitOn separator t := by
  unfold splitOn List.splitOn
  induction t with
  | nil => rfl
  | cons c cs ih =>
    have hprefix : List.isPrefixOf [separator] (c :: cs) = (separator == c) := Bool.and_true _
    rw [List.splitOnP_cons_eq_if_modifyHead, splitAfter, hprefix]
    by_cases hc : c = separator
    · rw [if_pos (beq_iff_eq.mpr hc.symm), if_pos (beq_iff_eq.mpr hc)]
      exact congrArg _ ih
    · rw [if_neg (by simpa using Ne.symm hc), if_neg (by simpa using hc), ih]
      cases hpieces : List.splitOnP (· == separator) cs with
      | nil => exact absurd hpieces (List.splitOnP_ne_nil _ _)
      | cons piece pieces => rfl

theorem occursIn_singleton {separator : CodePoint} {t : Text} :
    occursIn [separator] t = true ↔ separator ∈ t := by
  induction t with
  | nil => exact ⟨nofun, nofun⟩
  | cons c cs ih =>
    have hprefix : List.isPrefixOf [separator] (c :: cs) = (separator == c) := Bool.and_true _
    rw [occursIn, hprefix, Bool.or_eq_true, beq_iff_eq, ih, List.mem_cons]

/-- **Pieces without the separator are found again.** -/
theorem splitOn_intercalate {separator : CodePoint} {pieces : List Text}
    (hpieces : ∀ piece ∈ pieces, separator ∉ piece) (hne : pieces ≠ []) :
    splitOn [separator] (List.intercalate [separator] pieces) = pieces := by
  rw [splitOn_singleton]
  exact List.splitOn_intercalate separator hpieces hne

/-- The pieces of a text make up the text. -/
theorem intercalate_splitOn (separator : CodePoint) (t : Text) :
    List.intercalate [separator] (splitOn [separator] t) = t := by
  rw [splitOn_singleton]
  exact List.intercalate_splitOn separator

/-- The separator is in none of the pieces. -/
theorem not_mem_of_mem_splitOn {separator : CodePoint} {t piece : Text}
    (h : piece ∈ splitOn [separator] t) : separator ∉ piece := by
  rw [splitOn_singleton] at h
  induction t generalizing piece with
  | nil =>
    rw [List.splitOn_nil, List.mem_singleton] at h
    rw [h]
    exact List.not_mem_nil
  | cons c cs ih =>
    rw [List.splitOn_cons_eq_if_modifyHead] at h
    split at h
    · rcases List.mem_cons.mp h with rfl | h
      · exact List.not_mem_nil
      · exact ih h
    · rename_i hc
      cases hpieces : List.splitOn separator cs with
      | nil => exact absurd hpieces (List.splitOn_ne_nil _ _)
      | cons first rest =>
        rw [hpieces, List.modifyHead_cons] at h
        rw [hpieces] at ih
        rcases List.mem_cons.mp h with rfl | h
        · rw [List.mem_cons, not_or]
          exact ⟨fun heq => hc (beq_iff_eq.mpr heq.symm), ih List.mem_cons_self⟩
        · exact ih (List.mem_cons_of_mem first h)

/-- Leaving pieces out leaves a part of the text, in its order. -/
theorem sublist_intercalate (separator : Text) {ts us : List Text} (h : ts.Sublist us) :
    (List.intercalate separator ts).Sublist (List.intercalate separator us) := by
  induction h with
  | slnil => exact List.Sublist.refl _
  | @cons ts us u hsub ih =>
    cases us with
    | nil =>
      rw [List.sublist_nil.mp hsub]
      exact List.nil_sublist _
    | cons v vs =>
      rw [List.intercalate_cons_cons]
      exact ih.trans (List.sublist_append_right _ _)
  | @cons_cons ts us t hsub ih =>
    cases ts with
    | nil =>
      cases us with
      | nil => exact List.Sublist.refl _
      | cons u us =>
        rw [List.intercalate_singleton, List.intercalate_cons_cons, List.append_assoc]
        exact List.sublist_append_left _ _
    | cons t' ts =>
      cases us with
      | nil => cases hsub
      | cons u us =>
        rw [List.intercalate_cons_cons, List.intercalate_cons_cons]
        exact (List.Sublist.refl _).append ih

/-- A text without the separator is one piece. -/
theorem splitOn_of_not_mem {separator : CodePoint} {t : Text} (ht : separator ∉ t) :
    splitOn [separator] t = [t] := by
  have hpiece : ∀ piece ∈ [t], separator ∉ piece := by
    intro piece hpiece
    rwa [List.mem_singleton.mp hpiece]
  have hone := splitOn_intercalate hpiece (List.cons_ne_nil t [])
  rwa [List.intercalate_singleton] at hone

theorem mem_intercalate (separator : CodePoint) {pieces : List Text} (h : 2 ≤ pieces.length) :
    separator ∈ List.intercalate [separator] pieces := by
  match pieces, h with
  | s :: t :: pieces, _ =>
    rw [List.intercalate_cons_cons]
    simp

theorem intercalate_eq_nil {separator : CodePoint} {pieces : List Text}
    (h : List.intercalate [separator] pieces = []) : pieces = [] ∨ pieces = [[]] := by
  match pieces with
  | [] => exact .inl rfl
  | [t] =>
    rw [List.intercalate_singleton] at h
    exact .inr (congrArg (fun t => [t]) h)
  | s :: t :: pieces =>
    have hmem := mem_intercalate separator (List.length_cons ▸ Nat.le_add_left 2 pieces.length :
      2 ≤ (s :: t :: pieces).length)
    rw [h] at hmem
    cases hmem

end Winnow.Text

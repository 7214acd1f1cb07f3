import Winnow.Proofs.Evaluation.Ranges
import Winnow.Proofs.Text.Lowercase

/-!
# Pieces of the text of a field

A filter on a text looks for its value regardless of case: anywhere, at the beginning or at the end.
Both texts are lowered as wholes, so a literal piece of the field is found where lowering the field
leaves the piece its own lower case form.

* `Value.holds_text`, `Value.compareTexts_text` : the tests on two texts;
* `Filter.accepts_pieces` : which pieces of its field a record is accepted for;
* `Filter.not_accepts_pieces` : a piece that is missed, since it ends in a capital sigma and its word
  goes on.
-/

namespace Winnow

theorem Value.holds_text (whole part : Text) :
    (Value.text whole).holds (.text part) = .ok (part.lower.occursIn whole.lower) := by
  simp only [Value.holds, Value.toText]
  rfl

theorem Value.compareTexts_text (test : Text → Text → Bool) (whole part : Text) :
    (Value.text whole).compareTexts test (.text part) = .ok (test whole.lower part.lower) := by
  simp only [Value.compareTexts, Value.toText]
  rfl

namespace Filter

/-- **Which literal pieces of its field a record is accepted for.**  A piece within the field is
found if what stands around it changes none of its capital sigmas, or if its lower case form stands
at another place too; so every piece without a capital sigma is.  At the beginning and at the end a
piece is found exactly if the rest of the field changes none of its capital sigmas. -/
theorem accepts_pieces (today : Date) (d : Definition) (f : Filter) (r : Record) (a b c : Text) :
    (r.read d.field = .ok (.text (a ++ b ++ c)) →
      ∃ found : Bool,
        (f.asking .contains (.text b)).accepts today d r = .ok found ∧
        (f.asking .notContains (.text b)).accepts today d r = .ok !found ∧
        (found = true ↔ Text.Settled a b c ∨
          ∃ before after, (a ++ b ++ c).lower = before ++ b.lower ++ after ∧
            before.length ≠ a.lower.length) ∧
        (.scalar 'Σ' ∉ b → found = true)) ∧
    (r.read d.field = .ok (.text (a ++ b)) →
      (f.asking .startsWith (.text a)).accepts today d r = .ok (decide (Text.Settled [] a b)) ∧
      (f.asking .endsWith (.text b)).accepts today d r = .ok (decide (Text.Settled a b []))) := by
  constructor
  · intro hread
    have haccepts (o : Operator) : (f.asking o (.text b)).accepts today d r =
        o.test today d.kind (.text (a ++ b ++ c)) (.text b) := accepts_known hread rfl rfl
    have hholds := Value.holds_text (a ++ b ++ c) b
    have hfound := Text.occursIn_lower_iff a b c
    refine ⟨_, (haccepts .contains).trans hholds,
      (haccepts .notContains).trans (Operator.test_notContains hholds), hfound, fun hsigma => ?_⟩
    exact hfound.mpr (.inl (Text.settled_of_not_mem hsigma a c))
  · intro hread
    have haccepts (o : Operator) (v : Value) : (f.asking o v).accepts today d r =
        o.test today d.kind (.text (a ++ b)) v := accepts_known hread rfl rfl
    constructor
    · rw [haccepts, ← Text.isPrefixOf_lower_append a b]
      exact Value.compareTexts_text (fun whole part => part.isPrefixOf whole) (a ++ b) a
    · rw [haccepts, ← Text.isSuffixOf_lower_append a b]
      exact Value.compareTexts_text (fun whole part => part.isSuffixOf whole) (a ++ b) b

/-- A name whose first word ends in a capital sigma, as the word alone does. -/
theorem accepts_pieces_firstName :
    let d := Employees.definition "firstName" "First Name" "" .text Employees.textOperators
      .contains (by decide) (by decide)
    let f : Filter := ⟨"a", "firstName", .known .contains, .null, none⟩
    let r : Record := [("firstName", .text "ΝΙΚΟΣ Π.")]
    (f.asking .startsWith (.text "ΝΙΚΟΣ")).accepts default d r = .ok true := by
  intro d f r
  obtain ⟨-, hends⟩ := accepts_pieces default d f r "ΝΙΚΟΣ" " Π." []
  rw [(hends rfl).1]
  decide +kernel

/-- **A literal piece of a field can be missed**, at the beginning and anywhere: alone, its capital
sigma ends a word. -/
theorem not_accepts_pieces :
    let d := Employees.definition "city" "City" "" .text Employees.shortTextOperators .equals
      (by decide) (by decide)
    let f : Filter := ⟨"a", "city", .known .contains, .text "ΑΣ", none⟩
    let r : Record := [("city", .text ("ΑΣ" ++ "Α"))]
    f.accepts default d r = .ok false := by
  decide +kernel

end Filter

end Winnow

import Mathlib.Tactic.ByContra
import Winnow.Proofs.Calendar.IsoDate
import Winnow.Proofs.Settings.Acceptance

/-!
# Limits and default values

Settings that keep their rules have limits that can be compared with a length, and under such
limits every kind of field admits the value that a new filter starts with.

* `Settings.KeepsRules` : the rules of the settings find nothing to complain about in any value;
* `Settings.keepsRules_iff` : that is so exactly if every value is admitted;
* `Limits.Allows` : a length is within a limit;
* `Settings.KeepsRules.allows_listLength`, `Settings.KeepsRules.allows_textLength` : settings that
  keep their rules allow at least one item and one code point;
* `FieldKind.admits_defaultValue` : the default value of every kind is admitted, if ten code points
  are, which is what a date takes.
-/

namespace Winnow

/-! ## Limits -/

/-- A length is within a limit, which is a number. -/
def Limits.Allows (length : Nat) (limit : Value) : Prop :=
  ∃ o, Limits.compare length limit = .ok (some o) ∧ o ≠ .gt

namespace Binary64

/-- A smaller integer is not greater than what a greater one does not exceed. -/
theorem orderInt?_mono {m n : Int} (hmn : m ≤ n) {x : Binary64} {o : Ordering}
    (h : orderInt? n x = some o) (ho : o ≠ .gt) : ∃ p, orderInt? m x = some p ∧ p ≠ .gt := by
  cases x with
  | nan => simp [orderInt?] at h
  | number negative rank =>
    unfold orderInt? at h ⊢
    simp only at h ⊢
    split at h
    · rename_i hfinite
      cases h
      refine ⟨_, if_pos hfinite, ?_⟩
      have hle := Int.compare_ne_gt.mp ho
      rw [Int.compare_ne_gt]
      exact Int.le_trans (Int.mul_le_mul_of_nonneg_right hmn (Int.natCast_nonneg _)) hle
    · rename_i hinfinite
      exact ⟨o, by rw [if_neg hinfinite, h], ho⟩

end Binary64

theorem Limits.Allows.mono {m n : Nat} (hmn : m ≤ n) {limit : Value} (h : Limits.Allows n limit) :
    Limits.Allows m limit := by
  obtain ⟨o, hcompare, ho⟩ := h
  unfold Limits.Allows
  unfold Limits.compare at hcompare ⊢
  cases hx : limit.numeric? with
  | none => simp [hx] at hcompare
  | some x =>
    simp only [hx, Except.ok.injEq] at hcompare ⊢
    cases x with
    | int k =>
      simp only [Value.Numeric.order?, Option.some.injEq] at hcompare ⊢
      subst hcompare
      have hle := Int.compare_ne_gt.mp ho
      exact ⟨_, rfl, Int.compare_ne_gt.mpr (by omega)⟩
    | float x => exact Binary64.orderInt?_mono (by omega) hcompare ho

/-! ## Settings that keep their rules -/

/-- The rules of the settings find nothing to complain about in the value of any setting. -/
def Settings.KeepsRules (s : Settings) : Prop :=
  ∀ key : SettingKey, Document.valueComplaints key.rule [key.word, Document.valueKey]
    (.ofAtom (.value (s.setting key).value)) = .ok []

/-- A positive integer allows one. -/
theorem SettingRule.allows_one {v : Value} (h : SettingRule.positive.Admits v) :
    Limits.Allows 1 v := by
  obtain ⟨n, hn, rfl | ⟨x, rfl, hx⟩⟩ := h
  · exact ⟨compare 1 n, rfl, Int.compare_ne_gt.mpr hn⟩
  · refine ⟨compare 1 n, ?_, Int.compare_ne_gt.mpr hn⟩
    simp only [Limits.compare, Value.numeric?, Value.Numeric.order?, Binary64.orderInt?_of_toInt? hx,
      Int.natCast_one]

namespace Settings

theorem bundled_keepsRules : bundled.KeepsRules := by
  intro key
  cases key <;> rfl

variable {s : Settings}

/-- Settings keep their rules exactly if every value is admitted. -/
theorem keepsRules_iff : s.KeepsRules ↔ s.AllAdmitted := by
  refine forall_congr' fun key => Document.valueComplaints_iff.trans ?_
  show (∃ v, some (s.setting key).value = some v ∧ key.rule.Admits v) ↔ _
  simp

theorem KeepsRules.allows_textLength (hs : s.KeepsRules) : Limits.Allows 1 s.limits.textLength :=
  SettingRule.allows_one (keepsRules_iff.mp hs .textLength)

theorem KeepsRules.allows_listLength (hs : s.KeepsRules) : Limits.Allows 1 s.limits.listLength :=
  SettingRule.allows_one (keepsRules_iff.mp hs .listLength)

end Settings

/-! ## Admitted values -/

namespace FieldKind

variable {rules : Rules}

theorem lengthAdmitted_of_allows {t : Text}
    (h : Limits.Allows t.length rules.limits.textLength) :
    lengthAdmitted rules.limits (.text t) = .ok true := by
  obtain ⟨o, hcompare, ho⟩ := h
  simp only [lengthAdmitted, hcompare]
  cases o with
  | gt => exact absurd rfl ho
  | lt => rfl
  | eq => rfl

theorem not_isOverlong_of_allows {items : List Value}
    (h : Limits.Allows items.length rules.limits.listLength) :
    isOverlong rules.limits items = .ok false := by
  obtain ⟨o, hcompare, ho⟩ := h
  simp only [isOverlong, hcompare]
  cases o with
  | gt => exact absurd rfl ho
  | lt => rfl
  | eq => rfl

/-- Copying a list of values does not change whether it is admitted. -/
theorem admits_normalize (kind : FieldKind) (v : Value) :
    kind.admits rules v.normalize = kind.admits rules v := by
  cases v <;> rfl

theorem admits_emptyText (h : Limits.Allows 0 rules.limits.textLength) {kind : FieldKind}
    (hkind : kind = .text ∨ kind = .select) : kind.admits rules (.text []) = .ok true := by
  have hlength : lengthAdmitted rules.limits (.text []) = .ok true := lengthAdmitted_of_allows h
  rcases hkind with rfl | rfl <;> exact hlength

/-- **The default value of every kind is admitted**, where the present day has an ISO text that is
within the limit. -/
theorem admits_defaultValue (htext : Limits.Allows 10 rules.limits.textLength)
    (hlist : Limits.Allows 0 rules.limits.listLength) (kind : FieldKind) (d : Date) :
    kind.admits rules (kind.defaultValue d.isoText) = .ok true := by
  cases kind with
  | text => exact admits_emptyText (htext.mono (by omega)) (.inl rfl)
  | select => exact admits_emptyText (htext.mono (by omega)) (.inr rfl)
  | number => rfl
  | boolean => rfl
  | date =>
    have hlength : lengthAdmitted rules.limits (.text d.isoText) = .ok true :=
      lengthAdmitted_of_allows (by rw [Date.length_isoText]; exact htext)
    simp only [defaultValue, admits, admitsItem, fits, Moment.ofWritten_isoText]
    exact hlength
  | array =>
    have hshort : isOverlong rules.limits [] = .ok false := not_isOverlong_of_allows hlist
    simp only [defaultValue, admits, admitsItems, hshort]
    rfl

end FieldKind

end Winnow

import Winnow.Proofs.Query.Scalars

/-!
# Any texts as values

The text of a parameter may be any text.  Where its field holds numbers, it is read as an integer or
as a number with a fraction if it is one, and stays a text if it is neither.  Only an integer with
too many digits is not read at all.

* `Query.IsLongInteger` : an integer with too many digits;
* `Query.ReadsNumber`, `Query.readsNumber_of_scalarValue` : **what the text of a number is read
  as**;
* `Query.scalarValue_succeeds_iff` : a single text is read unless it is an integer that is too long;
* `Query.valueTexts` : the texts that a value is read from, one for each item of a list;
* `Query.readValue_succeeds_iff`, `Query.readsNumbers_of_readValue` : the same for whole values.
-/

namespace Winnow

open Outcome

/-- Whether a list is read under an operator, whatever the kind of the field. -/
def OperatorChoice.takesList : OperatorChoice → Bool
  | .known o => o.takesList
  | .other _ => false

namespace Query

/-! ## Numbers -/

/-- An integer has more digits than are converted. -/
def IsLongInteger (t : Text) : Prop :=
  ∃ digits, IsInteger t digits ∧ Numeral.digitLimit < digits.length

variable {t digits : Text} {v : Value}

theorem IsInteger.toInt_succeeds_iff (h : IsInteger t digits) :
    (∃ n, Numeral.toInt t = .ok n) ↔ ¬ Numeral.digitLimit < digits.length := by
  obtain ⟨hne, hdecimals, sign, ending, hsign, hending, rfl⟩ := h
  have hpads : ∀ c ∈ ending, c.padsNumeral = true := by
    rcases hending with rfl | rfl
    · exact nofun
    · decide
  rw [Numeral.toInt_signed hsign hne hdecimals hpads]
  split
  · rename_i hlong
    exact iff_of_false nofun fun hshort => hshort hlong
  · rename_i hshort
    exact iff_of_true ⟨_, rfl⟩ hshort

/-- What the text of a number is read as.  A text that is no number stays a text. -/
inductive ReadsNumber : Text → Value → Prop
  | absent : ReadsNumber [] .null
  | integer {t digits : Text} {n : Int} (h : IsInteger t digits) (hn : Numeral.toInt t = .ok n) :
    ReadsNumber t (.int n)
  | float {t : Text} {x : Binary64} (h : ∀ digits, ¬ IsInteger t digits)
    (hx : Binary64.ofText? t = some x) : ReadsNumber t (.float x)
  | text {t : Text} (hne : t ≠ []) (h : ∀ digits, ¬ IsInteger t digits)
    (hx : Binary64.ofText? t = none) : ReadsNumber t (.text t)

theorem readsNumber_of_scalarValue (h : scalarValue (some .number) t = .ok v) :
    ReadsNumber t v := by
  unfold scalarValue at h
  dsimp only at h
  split at h
  · rename_i hempty
    cases h
    rw [List.isEmpty_iff.mp hempty]
    exact .absent
  · rename_i hne
    split at h
    · rename_i hinteger
      obtain ⟨n, hn, h⟩ := of_bind_ok h
      cases h
      obtain ⟨digits, hdigits⟩ := isIntegerText_iff.mp hinteger
      exact .integer hdigits hn
    · rename_i hinteger
      have hnone : ∀ digits, ¬ IsInteger t digits := fun digits hdigits =>
        hinteger (isIntegerText_iff.mpr ⟨digits, hdigits⟩)
      split at h
      · rename_i hx
        cases h
        exact .float hnone hx
      · rename_i hx
        cases h
        exact .text (by simpa using hne) hnone hx

/-- A text is read as a number unless it is an integer with too many digits. -/
theorem scalarValue_number_succeeds_iff :
    (∃ v, scalarValue (some .number) t = .ok v) ↔ ¬ IsLongInteger t := by
  constructor
  · rintro ⟨v, h⟩ ⟨digits, hdigits, hlong⟩
    cases readsNumber_of_scalarValue h with
    | absent =>
      obtain ⟨-, -, sign, ending, -, -, hempty⟩ := hdigits
      rw [eq_comm, List.append_eq_nil_iff, List.append_eq_nil_iff] at hempty
      rw [hempty.1.2] at hlong
      exact absurd hlong (by decide)
    | integer _ hn => exact (hdigits.toInt_succeeds_iff.mp ⟨_, hn⟩) hlong
    | float hnone _ => exact hnone digits hdigits
    | text _ hnone _ => exact hnone digits hdigits
  · intro hshort
    unfold scalarValue
    dsimp only
    split
    · exact ⟨.null, rfl⟩
    · split
      · rename_i hinteger
        obtain ⟨digits, hdigits⟩ := isIntegerText_iff.mp hinteger
        obtain ⟨n, hn⟩ := hdigits.toInt_succeeds_iff.mpr fun hlong =>
          hshort ⟨digits, hdigits, hlong⟩
        rw [hn]
        exact ⟨.int n, rfl⟩
      · split
        · exact ⟨_, rfl⟩
        · exact ⟨_, rfl⟩

/-- **A single text is read** by its kind, if it is not one that is too long. -/
theorem scalarValue_succeeds_iff (kind : Option FieldKind) (t : Text) :
    (∃ v, scalarValue kind t = .ok v) ↔ ¬ (kind = some .number ∧ IsLongInteger t) := by
  by_cases hnumber : kind = some .number
  · rw [hnumber, scalarValue_number_succeeds_iff, and_iff_right rfl]
  · refine iff_of_true ?_ fun h => hnumber h.1
    unfold scalarValue
    split
    · exact absurd rfl hnumber
    · split
      · exact ⟨_, rfl⟩
      · split
        · exact ⟨_, rfl⟩
        · split <;> exact ⟨_, rfl⟩
    · split <;> exact ⟨_, rfl⟩
    · exact ⟨_, rfl⟩

/-! ## Values -/

/-- The text of a value is that of a list. -/
def readsList (separator : Text) (kind : Option FieldKind) (operator : OperatorChoice) (t : Text) :
    Bool :=
  operator.takesList || (kind = some .array && (t.isEmpty || separator.occursIn t))

/-- The texts that a value is read from, one for each item of a list. -/
def valueTexts (separator : Text) (kind : Option FieldKind) (operator : OperatorChoice) (t : Text) :
    List Text :=
  if readsList separator kind operator t then
    if t.isEmpty then [] else Text.splitOn separator t
  else [t]

/-- What the text of a number, or that of a list of numbers, is read as. -/
def ReadsNumbers (separator : Text) (operator : OperatorChoice) (t : Text) (v : Value) : Prop :=
  if readsList separator (some .number) operator t then
    ∃ items, v = .list items ∧
      List.Forall₂ ReadsNumber (valueTexts separator (some .number) operator t) items
  else ReadsNumber t v

variable {separator : Text} {kind : Option FieldKind} {operator : OperatorChoice}

theorem isListText_eq (separator : Text) (kind : Option FieldKind) (operator : OperatorChoice)
    (t : Text) :
    isListText (.text separator) kind operator t = .ok (readsList separator kind operator t) := by
  have hcases : isListText (.text separator) kind operator t =
      if operator.takesList then .ok true
      else if kind = some .array then
        if t.isEmpty then .ok true else .ok (separator.occursIn t)
      else .ok false := by
    cases operator <;> rfl
  rw [hcases, readsList]
  by_cases hkind : kind = some .array
  · rw [if_pos hkind, decide_eq_true hkind]
    cases operator.takesList <;> cases t.isEmpty <;> rfl
  · rw [if_neg hkind, decide_eq_false hkind]
    cases operator.takesList <;> rfl

/-- A value is read text by text. -/
theorem readValue_eq (hseparator : separator ≠ []) (kind : Option FieldKind)
    (operator : OperatorChoice) (t : Text) :
    readValue (.text separator) kind operator t =
      if readsList separator kind operator t then
        ((valueTexts separator kind operator t).mapM (scalarValue kind)).map .list
      else scalarValue kind t := by
  obtain ⟨c, cs, rfl⟩ := List.exists_cons_of_ne_nil hseparator
  unfold readValue valueTexts
  rw [isListText_eq]
  cases readsList (c :: cs) kind operator t with
  | false => rfl
  | true =>
    show (if t.isEmpty then .ok (.list [])
      else (do return .list (← (Text.splitOn (c :: cs) t).mapM (scalarValue kind)))) =
        Except.map Value.list ((if t.isEmpty then [] else Text.splitOn (c :: cs) t).mapM
          (scalarValue kind))
    cases t.isEmpty with
    | true => rfl
    | false =>
      rw [if_neg Bool.false_ne_true, if_neg Bool.false_ne_true]
      cases (Text.splitOn (c :: cs) t).mapM (scalarValue kind) <;> rfl

/-- **A value is read** exactly if none of its texts is too long. -/
theorem readValue_succeeds_iff (hseparator : separator ≠ []) :
    (∃ v, readValue (.text separator) kind operator t = .ok v) ↔
      ∀ s ∈ valueTexts separator kind operator t, ¬ (kind = some .number ∧ IsLongInteger s) := by
  simp only [← scalarValue_succeeds_iff]
  rw [readValue_eq hseparator]
  cases hlist : readsList separator kind operator t with
  | false =>
    have htexts : valueTexts separator kind operator t = [t] := by
      rw [valueTexts, hlist]
      rfl
    rw [htexts, List.forall_mem_singleton]
    exact Iff.rfl
  | true =>
    rw [← mapM_succeeds_iff]
    cases (valueTexts separator kind operator t).mapM (scalarValue kind) with
    | error fault => exact iff_of_false nofun nofun
    | ok items => exact iff_of_true ⟨_, rfl⟩ ⟨_, rfl⟩

/-- **What the numbers of a value are read as.** -/
theorem readsNumbers_of_readValue (hseparator : separator ≠ [])
    (h : readValue (.text separator) (some .number) operator t = .ok v) :
    ReadsNumbers separator operator t v := by
  rw [readValue_eq hseparator] at h
  unfold ReadsNumbers
  cases hlist : readsList separator (some .number) operator t with
  | false =>
    rw [hlist] at h
    exact readsNumber_of_scalarValue h
  | true =>
    rw [hlist] at h
    cases hitems : (valueTexts separator (some .number) operator t).mapM
        (scalarValue (some .number)) with
    | error fault =>
      rw [hitems] at h
      cases h
    | ok items =>
      rw [hitems] at h
      cases h
      exact ⟨items, rfl, (mapM_ok_iff.mp hitems).imp fun _ _ => readsNumber_of_scalarValue⟩

end Query

end Winnow

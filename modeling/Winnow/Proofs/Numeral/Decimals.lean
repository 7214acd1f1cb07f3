import Mathlib.Data.List.TakeWhile
import Winnow.Numeral
import Winnow.Proofs.Text.Basic

/-!
# Numerals of any script

A run of decimal digits is a numeral whatever the scripts of its digits are and however many zeros
it begins with.  A sign may stand before it, and blanks behind it.

* `CodePoint.of_decimalValue?` : where the decimal digits are, which is apart from what may surround
  a numeral;
* `Numeral.digitValues` : what the digits of a run stand for;
* `Numeral.toInt_signed`, `Numeral.toInt_decimals` : **a run of digits is read** unless it is longer
  than the digit limit;
* `Numeral.toInt_of_digits` : digits among which one is not decimal are no numeral.
-/

namespace Winnow

namespace CodePoint

/-- A decimal digit is one of the ten that follow the zero of its script. -/
theorem of_decimalValue? {c : CodePoint} {d : Nat} (h : c.decimalValue? = some d) :
    ∃ z ∈ decimalZeros, c.toNat = z + d ∧ d < 10 := by
  unfold decimalValue? at h
  split at h
  · split at h
    · cases h
      exact ⟨0x30, List.mem_cons_self, by omega, by omega⟩
    · cases h
  · obtain ⟨z, hz, rfl⟩ := Option.map_eq_some_iff.mp h
    have hrange := List.find?_some hz
    rw [Bool.and_eq_true, decide_eq_true_iff, decide_eq_true_iff] at hrange
    exact ⟨z, List.mem_of_find?_eq_some hz, by omega, by omega⟩

theorem padsNumeral_of_isDecimal {c : CodePoint} (h : c.isDecimal = true) :
    c.padsNumeral = false := by
  have hapart : ∀ z ∈ decimalZeros, ∀ r ∈ blankRanges, z + 9 < r.1 ∨ r.2 < z := by decide
  obtain ⟨d, hd⟩ := Option.isSome_iff_exists.mp h
  obtain ⟨z, hz, hvalue, hlt⟩ := of_decimalValue? hd
  have hblank : c.isBlank = false := by
    refine List.any_eq_false.mpr fun r hr hrange => ?_
    rw [Bool.and_eq_true, decide_eq_true_iff, decide_eq_true_iff] at hrange
    have := hapart z hz r hr
    omega
  rw [padsNumeral, hblank, Bool.false_and]

/-- The marks of a numeral are no digits. -/
theorem ne_of_isDigit {c : CodePoint} (h : c.isDigit = true) :
    c ≠ .scalar '_' ∧ c ≠ .scalar '-' ∧ c ≠ .scalar '+' := by
  have hother : ∀ {mark}, (CodePoint.scalar mark).isDigit = false → c ≠ .scalar mark := by
    rintro mark hmark rfl
    rw [hmark] at h
    cases h
  exact ⟨hother (by decide), hother (by decide), hother (by decide)⟩

theorem isDigit_of_isDecimal {c : CodePoint} (h : c.isDecimal = true) : c.isDigit = true := by
  rw [isDigit, h, Bool.true_or]

theorem ne_of_isDecimal {c : CodePoint} (h : c.isDecimal = true) :
    c ≠ .scalar '_' ∧ c ≠ .scalar '-' ∧ c ≠ .scalar '+' :=
  ne_of_isDigit (isDigit_of_isDecimal h)

/-- No digit is a blank, positional or not. -/
theorem padsNumeral_of_isDigit {c : CodePoint} (h : c.isDigit = true) : c.padsNumeral = false := by
  rcases Bool.or_eq_true_iff.mp h with hdecimal | hother
  · exact padsNumeral_of_isDecimal hdecimal
  · have hapart : ∀ r ∈ nonpositionalDigitRanges, ∀ s ∈ blankRanges, r.2 < s.1 ∨ s.2 < r.1 := by
      decide
    obtain ⟨r, hr, hrange⟩ := List.any_eq_true.mp hother
    rw [Bool.and_eq_true, decide_eq_true_iff, decide_eq_true_iff] at hrange
    have hblank : c.isBlank = false := by
      refine List.any_eq_false.mpr fun s hs hblank => ?_
      rw [Bool.and_eq_true, decide_eq_true_iff, decide_eq_true_iff] at hblank
      have := hapart r hr s hs
      omega
    rw [padsNumeral, hblank, Bool.false_and]

end CodePoint

namespace Numeral

/-! ## Runs of digits -/

/-- The values of the decimal digits in a text. -/
def digitValues (t : Text) : List Nat := t.filterMap CodePoint.decimalValue?

variable {t sign ending : Text}

theorem digitValues_cons {c : CodePoint} {d : Nat} (h : c.decimalValue? = some d) (t : Text) :
    digitValues (c :: t) = d :: digitValues t := List.filterMap_cons_some h

theorem digitValues_lt : ∀ d ∈ digitValues t, d < 10 := by
  intro d hd
  obtain ⟨c, -, hc⟩ := List.mem_filterMap.mp hd
  obtain ⟨-, -, -, hlt⟩ := CodePoint.of_decimalValue? hc
  exact hlt

theorem length_digitValues (h : ∀ c ∈ t, c.isDecimal = true) :
    (digitValues t).length = t.length := by
  induction t with
  | nil => rfl
  | cons c cs ih =>
    obtain ⟨hc, hcs⟩ := List.forall_mem_cons.mp h
    obtain ⟨d, hd⟩ := Option.isSome_iff_exists.mp hc
    rw [digitValues_cons hd, List.length_cons, List.length_cons, ih hcs]

/-- Without underscores the digits are read up to the first code point that is not decimal. -/
theorem moreDigits_eq (h : ∀ c ∈ t, c ≠ .scalar '_') :
    moreDigits t = some (digitValues (t.takeWhile CodePoint.isDecimal),
      t.dropWhile CodePoint.isDecimal) := by
  induction t with
  | nil => rfl
  | cons c cs ih =>
    obtain ⟨hc, hcs⟩ := List.forall_mem_cons.mp h
    have hmark : ∀ (d : CodePoint) (ds : Text), c = .scalar '_' → cs = d :: ds → False :=
      fun _ _ hmark _ => hc hmark
    rw [moreDigits.eq_3 c cs hmark]
    cases hvalue : c.decimalValue? with
    | some d =>
      have hdecimal : c.isDecimal = true := Option.isSome_iff_exists.mpr ⟨d, hvalue⟩
      rw [List.takeWhile_cons_of_pos hdecimal, List.dropWhile_cons_of_pos hdecimal,
        digitValues_cons hvalue, ih hcs]
      rfl
    | none =>
      have hother : ¬ c.isDecimal = true := by
        rw [CodePoint.isDecimal, hvalue]
        exact nofun
      rw [List.takeWhile_cons_of_neg hother, List.dropWhile_cons_of_neg hother]
      exact if_neg hc

theorem moreDigits_decimals (h : ∀ c ∈ t, c.isDecimal = true) :
    moreDigits t = some (digitValues t, []) := by
  rw [moreDigits_eq fun c hc => (CodePoint.ne_of_isDecimal (h c hc)).1,
    List.takeWhile_eq_self_iff.mpr h, List.dropWhile_eq_nil_iff.mpr h]

/-- The digits of a run are read as far as they go. -/
theorem digitRun_decimals (hne : t ≠ []) (h : ∀ c ∈ t, c.isDecimal = true) :
    digitRun t = some (digitValues t, []) := by
  cases t with
  | nil => exact absurd rfl hne
  | cons c cs =>
    obtain ⟨hc, hcs⟩ := List.forall_mem_cons.mp h
    obtain ⟨d, hd⟩ := Option.isSome_iff_exists.mp hc
    rw [digitRun, hd, digitValues_cons hd, moreDigits_decimals hcs]
    rfl

/-! ## Numerals -/

/-- A text that may stand for the sign of a number. -/
def IsSign (sign : Text) : Prop := sign = [] ∨ sign = [.scalar '-'] ∨ sign = [.scalar '+']

theorem takeSign_of_ne {c : CodePoint} (hminus : c ≠ .scalar '-') (hplus : c ≠ .scalar '+')
    (t : Text) : takeSign (c :: t) = (false, c :: t) := by
  unfold takeSign
  split
  · rename_i hc
    exact absurd (List.cons.inj hc).1 hminus
  · rename_i hc
    exact absurd (List.cons.inj hc).1 hplus
  · rfl

/-- The sign before a digit is found. -/
theorem takeSign_append (hsign : IsSign sign) {d : CodePoint} (hd : d.isDecimal = true) (t : Text) :
    takeSign (sign ++ d :: t) = (decide (sign = [.scalar '-']), d :: t) := by
  rcases hsign with rfl | rfl | rfl
  · obtain ⟨-, hminus, hplus⟩ := CodePoint.ne_of_isDecimal hd
    exact takeSign_of_ne hminus hplus t
  · rfl
  · rfl

theorem takeSign_spec (t : Text) : ∃ sign, IsSign sign ∧ t = sign ++ (takeSign t).2 := by
  unfold takeSign
  split
  · exact ⟨_, .inr (.inl rfl), rfl⟩
  · exact ⟨_, .inr (.inr rfl), rfl⟩
  · exact ⟨[], .inl rfl, rfl⟩

/-- **A run of digits is read** with the sign before it and without the blanks behind it, unless it
is too long. -/
theorem toInt_signed (hsign : IsSign sign) (hne : t ≠ []) (h : ∀ c ∈ t, c.isDecimal = true)
    (hending : ∀ c ∈ ending, c.padsNumeral = true) :
    toInt (sign ++ t ++ ending) =
      if digitLimit < t.length then .error (.digitLimit (some t.length))
      else .ok (if sign = [.scalar '-'] then -(valueOf (digitValues t) : Int)
        else valueOf (digitValues t)) := by
  have hcore : ∀ c ∈ sign ++ t, c.padsNumeral = false := by
    intro c hc
    rcases List.mem_append.mp hc with hc | hc
    · rcases hsign with rfl | rfl | rfl
      · cases hc
      · rw [List.mem_singleton.mp hc]
        decide
      · rw [List.mem_singleton.mp hc]
        decide
    · exact CodePoint.padsNumeral_of_isDecimal (h c hc)
  have hunpadded : (sign ++ t ++ ending).unpadded = sign ++ t :=
    Text.trim_append hcore (List.append_ne_nil_of_right_ne_nil sign hne) hending
  have hsplit : takeSign (sign ++ t) = (decide (sign = [.scalar '-']), t) := by
    cases t with
    | nil => exact absurd rfl hne
    | cons d ds => exact takeSign_append hsign (h d List.mem_cons_self) ds
  unfold toInt
  rw [hunpadded, hsplit]
  dsimp only
  rw [digitRun_decimals hne h]
  dsimp only
  rw [length_digitValues h]
  simp only [gt_iff_lt, ne_eq, not_true_eq_false, if_false, decide_eq_true_eq]

theorem toInt_decimals (hne : t ≠ []) (h : ∀ c ∈ t, c.isDecimal = true) :
    toInt t = if digitLimit < t.length then .error (.digitLimit (some t.length))
      else .ok (valueOf (digitValues t) : Int) := by
  have hread := @toInt_signed t [] [] (.inl rfl) hne h nofun
  rwa [List.nil_append, List.append_nil, if_neg (List.cons_ne_nil _ _).symm] at hread

/-! ## Digits that are not decimal -/

/-- **Digits among which one is not decimal are no numeral.** -/
theorem toInt_of_digits (h : ∀ c ∈ t, c.isDigit = true) (hother : ∃ c ∈ t, c.isDecimal = false) :
    ∃ fault, toInt t = .error fault := by
  have hunpadded : t.unpadded = t :=
    Text.trim_eq_self fun c hc => CodePoint.padsNumeral_of_isDigit (h c hc)
  have hplain : ∀ c ∈ t, c ≠ .scalar '_' := fun c hc => (CodePoint.ne_of_isDigit (h c hc)).1
  cases t with
  | nil =>
    obtain ⟨c, hc, -⟩ := hother
    cases hc
  | cons c cs =>
    obtain ⟨-, hminus, hplus⟩ := CodePoint.ne_of_isDigit (h c List.mem_cons_self)
    unfold toInt
    rw [hunpadded, takeSign_of_ne hminus hplus]
    dsimp only
    rw [digitRun]
    cases hvalue : c.decimalValue? with
    | none => exact ⟨_, rfl⟩
    | some d =>
      have hdecimal : c.isDecimal = true := Option.isSome_iff_exists.mpr ⟨d, hvalue⟩
      have hrest : cs.dropWhile CodePoint.isDecimal ≠ [] := by
        intro hnil
        obtain ⟨e, he, hnot⟩ := hother
        rcases List.mem_cons.mp he with rfl | he
        · rw [hdecimal] at hnot
          cases hnot
        · rw [List.dropWhile_eq_nil_iff.mp hnil e he] at hnot
          cases hnot
      dsimp only
      rw [moreDigits_eq fun e he => hplain e (List.mem_cons_of_mem c he)]
      simp only [Option.map_some, hrest, ne_eq, not_false_eq_true, if_true]
      split <;> exact ⟨_, rfl⟩

end Numeral

end Winnow

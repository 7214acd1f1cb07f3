import Mathlib.Algebra.Group.Nat.Defs
import Winnow.Calendar.Iso

/-!
# Reading back decimal digits

The digits that a number is written with are read back as the number, also with zeros in front of
them up to a width.

* `Numeral.valueOf_toDigits` : the value of the decimal digits of a number is the number;
* `Numeral.toDigits_head` : the digits of a positive number do not begin with a zero;
* `takeDigits_paddedDigits` : a number that fits a width is read back from so many digits,
  whatever follows them.
-/

namespace Winnow

theorem isDigit_bounds {c : Char} (hc : c.isDigit) : 0x30 ≤ c.toNat ∧ c.toNat ≤ 0x39 :=
  Char.isDigit_iff_toNat.mp hc

/-- A digit is one of ten characters. -/
theorem exists_ofNat_of_isDigit {c : Char} (hc : c.isDigit) :
    ∃ k < 10, c = Char.ofNat (0x30 + k) := by
  obtain ⟨hlow, hhigh⟩ := isDigit_bounds hc
  have hsum : 0x30 + (c.toNat - 0x30) = c.toNat := by omega
  refine ⟨c.toNat - 0x30, by omega, ?_⟩
  rw [hsum, Char.ofNat_toNat]

namespace Numeral

theorem valueOf_chars (cs : List Char) :
    valueOf (cs.map fun c => c.toNat - 0x30) = Nat.ofDigitChars 10 cs 0 := by
  simp [valueOf, Nat.ofDigitChars_eq_foldl, List.foldl_map]

theorem valueOf_toDigits (n : Nat) :
    valueOf ((Nat.toDigits 10 n).map fun c => c.toNat - 0x30) = n := by
  rw [valueOf_chars, Nat.ofDigitChars_ten_toDigits]

theorem toDigits_head {n : Nat} (hn : 0 < n) :
    ∃ d ds, Nat.toDigits 10 n = d :: ds ∧ d ≠ '0' := by
  induction n using Nat.strongRecOn with
  | ind n ih =>
    by_cases hlt : n < 10
    · have hdigit : ∀ k < 10, 0 < k → Nat.digitChar k ≠ '0' := by decide
      rw [Nat.toDigits_of_lt_base hlt]
      exact ⟨_, [], rfl, hdigit n hlt hn⟩
    · obtain ⟨d, ds, hds, hd⟩ := ih (n / 10) (by omega) (by omega)
      rw [Nat.toDigits_of_base_le (by decide) (by omega), hds]
      exact ⟨d, _, rfl, hd⟩

end Numeral

/-! ## Padded digits -/

theorem length_paddedDigits {width n : Nat} (hw : 0 < width) (hn : n < 10 ^ width) :
    (paddedDigits width n).length = width := by
  have hlen := (Nat.length_toDigits_le_iff (by decide : 1 < 10) hw).mpr hn
  simp only [paddedDigits, List.length_append, List.length_replicate]
  omega

theorem isDigit_of_mem_paddedDigits {width n : Nat} {c : Char} (hc : c ∈ paddedDigits width n) :
    c.isDigit := by
  simp only [paddedDigits, List.mem_append, List.mem_replicate] at hc
  rcases hc with ⟨-, rfl⟩ | hc
  · decide
  · exact Nat.isDigit_of_mem_toDigits (by decide) (by decide) hc

theorem valueOf_paddedDigits (width n : Nat) :
    Numeral.valueOf ((paddedDigits width n).map fun c => c.toNat - 0x30) = n := by
  rw [Numeral.valueOf_chars, paddedDigits, Nat.ofDigitChars_append,
    Nat.ofDigitChars_replicate_zero, Nat.mul_zero, Nat.ofDigitChars_ten_toDigits]

/-- **A padded number is read back**, and nothing of what follows it is. -/
theorem takeDigits_paddedDigits {width n : Nat} (hw : 0 < width) (hn : n < 10 ^ width)
    (rest : List Char) : takeDigits width (paddedDigits width n ++ rest) = some (n, rest) := by
  have hlen := length_paddedDigits hw hn
  have htake : (paddedDigits width n ++ rest).take width = paddedDigits width n :=
    List.take_left' hlen
  have hdrop : (paddedDigits width n ++ rest).drop width = rest := List.drop_left' hlen
  have hdigits : (paddedDigits width n).all Char.isDigit = true :=
    List.all_eq_true.mpr fun _ => isDigit_of_mem_paddedDigits
  unfold takeDigits
  rw [htake, hdrop]
  simp only [hlen, hdigits, and_self, if_true, valueOf_paddedDigits]

end Winnow

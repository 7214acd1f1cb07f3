import Mathlib.Data.Nat.Digits.Defs
import Winnow.Proofs.Numeral.Decimals
import Winnow.Proofs.Numeral.Digits

/-!
# Reading back integers

The decimal text of an integer is a sign and ASCII digits, which are decimal digits among others.

* `Numeral.valueOf_digitValues_digits` : the digits of a number stand for it;
* `Numeral.ofIntUnlimited_eq` : the text of an integer is its sign and its digits;
* `Numeral.toInt_ofIntUnlimited` : **the text of an integer is read back**, within the digit limit;
* `Numeral.length_digits_valueOf` : without zeros before them, digits that are read are no more;
* `Numeral.ofInt_of_toInt` : so an integer that is read can be written.
-/

namespace Winnow

/-- A digit of ASCII is a decimal digit. -/
theorem CodePoint.decimalValue?_of_isDigit {c : Char} (hc : c.isDigit) :
    (CodePoint.scalar c).decimalValue? = some (c.toNat - 0x30) := by
  have hdigits : ∀ k < 10, (CodePoint.scalar (Char.ofNat (0x30 + k))).decimalValue? =
      some ((Char.ofNat (0x30 + k)).toNat - 0x30) := by decide
  obtain ⟨k, hk, rfl⟩ := exists_ofNat_of_isDigit hc
  exact hdigits k hk

theorem CodePoint.isDecimal_of_isDigit {c : Char} (hc : c.isDigit) :
    (CodePoint.scalar c).isDecimal = true := by
  rw [isDecimal, decimalValue?_of_isDigit hc]
  rfl

namespace Numeral

theorem isDigit_toDigits {n : Nat} {c : Char} (hc : c ∈ Nat.toDigits 10 n) : c.isDigit :=
  Nat.isDigit_of_mem_toDigits (by decide) (by decide) hc

theorem digits_ne_nil (n : Nat) : digits n ≠ [] := by
  unfold digits Text.ofChars
  rw [ne_eq, List.map_eq_nil_iff]
  exact Nat.toDigits_ne_nil

theorem isDecimal_of_mem_digits {n : Nat} {c : CodePoint} (hc : c ∈ digits n) :
    c.isDecimal = true := by
  obtain ⟨d, hd, rfl⟩ := List.mem_map.mp hc
  exact CodePoint.isDecimal_of_isDigit (isDigit_toDigits hd)

theorem digitValues_ofChars {ds : List Char} (hds : ∀ c ∈ ds, c.isDigit) :
    digitValues (Text.ofChars ds) = ds.map fun c => c.toNat - 0x30 := by
  induction ds with
  | nil => rfl
  | cons d ds ih =>
    obtain ⟨hd, hrest⟩ := List.forall_mem_cons.mp hds
    rw [List.map_cons, ← ih hrest]
    exact digitValues_cons (CodePoint.decimalValue?_of_isDigit hd) (Text.ofChars ds)

/-- The digits of a number stand for it. -/
theorem valueOf_digitValues_digits (n : Nat) : valueOf (digitValues (digits n)) = n := by
  rw [digits, digitValues_ofChars fun c hc => isDigit_toDigits hc, valueOf_toDigits]

theorem digits_injective : Function.Injective digits := by
  intro m n h
  have hvalue := congrArg (fun t => valueOf (digitValues t)) h
  rwa [valueOf_digitValues_digits, valueOf_digitValues_digits] at hvalue

/-- A digit at the front of a text is no sign. -/
theorem takeSign_digit {d : Char} (hd : d.isDigit) (cs : List Char) :
    takeSign (Text.ofChars (d :: cs)) = (false, Text.ofChars (d :: cs)) :=
  takeSign_append (.inl rfl) (CodePoint.isDecimal_of_isDigit hd) (Text.ofChars cs)

/-- The text of an integer is its sign and its digits. -/
theorem ofIntUnlimited_eq (n : Int) :
    ofIntUnlimited n = (if n < 0 then [.scalar '-'] else []) ++ digits n.natAbs := by
  unfold ofIntUnlimited
  split <;> rfl

theorem isSign_ofIntUnlimited (n : Int) : IsSign (if n < 0 then [.scalar '-'] else []) := by
  split
  · exact .inr (.inl rfl)
  · exact .inl rfl

/-- **The text of an integer is read back**, within the digit limit. -/
theorem toInt_ofIntUnlimited {n : Int} (h : (digits n.natAbs).length ≤ digitLimit) :
    toInt (ofIntUnlimited n) = .ok n := by
  have hread := @toInt_signed (digits n.natAbs) _ [] (isSign_ofIntUnlimited n)
    (digits_ne_nil _) (fun c => isDecimal_of_mem_digits) nofun
  rw [List.append_nil, ← ofIntUnlimited_eq, if_neg (Nat.not_lt.mpr h),
    valueOf_digitValues_digits] at hread
  rw [hread]
  by_cases hn : n < 0
  · rw [if_pos hn, if_pos rfl]
    exact congrArg Except.ok (by omega)
  · rw [if_neg hn, if_neg (List.cons_ne_nil _ _).symm]
    exact congrArg Except.ok (by omega)

theorem toInt_digits {n : Nat} (h : (digits n).length ≤ digitLimit) :
    toInt (digits n) = .ok (n : Int) :=
  toInt_ofIntUnlimited (n := n) h

theorem ofInt_of_length {n : Int} (h : (digits n.natAbs).length ≤ digitLimit) :
    ofInt n = .ok (ofIntUnlimited n) :=
  if_neg (Nat.not_lt.mpr h)

theorem length_of_ofInt {n : Int} {t : Text} (h : ofInt n = .ok t) :
    (digits n.natAbs).length ≤ digitLimit := by
  unfold ofInt at h
  split at h
  · cases h
  · exact Nat.le_of_not_lt ‹_›

/-- A number below a power of ten has no more digits than its exponent. -/
theorem length_digits_le {n width : Nat} (hw : 0 < width) (h : n < 10 ^ width) :
    (digits n).length ≤ width := by
  unfold digits Text.ofChars
  rw [List.length_map]
  exact (Nat.length_toDigits_le_iff (by decide) hw).mpr h

/-- A number that is read from digits has no more digits than these. -/
theorem length_digits_valueOf {ds : List Nat} (hds : ∀ d ∈ ds, d < 10) (hne : ds ≠ []) :
    (digits (valueOf ds)).length ≤ ds.length := by
  have hvalue : valueOf ds = Nat.ofDigits 10 ds.reverse := by
    rw [Nat.ofDigits_eq_foldr, List.foldr_reverse]
    simp [valueOf, Nat.add_comm]
  have hlt : valueOf ds < 10 ^ ds.length := by
    rw [hvalue, ← List.length_reverse]
    exact Nat.ofDigits_lt_base_pow_length (by decide) (by simpa using hds)
  exact length_digits_le (List.length_pos_iff.mpr hne) hlt

theorem lt_of_moreDigits {t rest : Text} {ds : List Nat} (h : moreDigits t = some (ds, rest)) :
    ∀ d ∈ ds, d < 10 := by
  fun_induction moreDigits t generalizing ds rest with
  | case1 =>
    cases h
    exact nofun
  | case2 c cs d hd ih =>
    obtain ⟨⟨es, _⟩, hes, heq⟩ := Option.map_eq_some_iff.mp h
    cases heq
    obtain ⟨_, _, _, hlt⟩ := CodePoint.of_decimalValue? hd
    exact List.forall_mem_cons.mpr ⟨hlt, ih hes⟩
  | case3 => cases h
  | case4 c cs hother d hd ih =>
    obtain ⟨⟨es, _⟩, hes, heq⟩ := Option.map_eq_some_iff.mp h
    cases heq
    obtain ⟨_, _, _, hlt⟩ := CodePoint.of_decimalValue? hd
    exact List.forall_mem_cons.mpr ⟨hlt, ih hes⟩
  | case5 => cases h
  | case6 =>
    cases h
    exact nofun

theorem of_digitRun {t rest : Text} {ds : List Nat} (h : digitRun t = some (ds, rest)) :
    ds ≠ [] ∧ ∀ d ∈ ds, d < 10 := by
  unfold digitRun at h
  split at h
  · cases h
  · split at h
    · rename_i hd
      obtain ⟨⟨es, _⟩, hes, heq⟩ := Option.map_eq_some_iff.mp h
      cases heq
      obtain ⟨_, _, _, hlt⟩ := CodePoint.of_decimalValue? hd
      exact ⟨List.cons_ne_nil _ _, List.forall_mem_cons.mpr ⟨hlt, lt_of_moreDigits hes⟩⟩
    · cases h

/-- An integer that is read can be written: the digit limit is the same both ways. -/
theorem ofInt_of_toInt {t : Text} {n : Int} (h : toInt t = .ok n) : ∃ u, ofInt n = .ok u := by
  unfold toInt at h
  dsimp only at h
  split at h
  · cases h
  · rename_i ds rest hrun
    obtain ⟨hne, hds⟩ := of_digitRun hrun
    split at h
    · cases h
    · rename_i hlimit
      split at h
      · cases h
      · have habs : n.natAbs = valueOf ds := by
          obtain rfl := Except.ok.inj h
          split <;> omega
        have hlength := length_digits_valueOf hds hne
        rw [← habs] at hlength
        exact ⟨_, ofInt_of_length (hlength.trans (Nat.le_of_not_lt hlimit))⟩

/-- A power of ten has one digit more than its exponent. -/
theorem length_digits_ten_pow {exponent : Nat} (h : 0 < exponent) :
    (digits (10 ^ exponent)).length = exponent + 1 := by
  have hmore : ¬ (digits (10 ^ exponent)).length ≤ exponent := by
    rw [digits, Text.ofChars, List.length_map, Nat.length_toDigits_le_iff (by decide) h]
    exact Nat.lt_irrefl _
  have hless := length_digits_le (Nat.succ_pos exponent)
    (Nat.pow_lt_pow_right (by decide) (Nat.lt_succ_self exponent))
  omega

end Numeral

end Winnow

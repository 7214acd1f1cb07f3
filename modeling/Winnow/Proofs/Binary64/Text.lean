import Mathlib.Tactic.IntervalCases
import Winnow.Binary64.Reader
import Winnow.Proofs.Binary64.Decimal
import Winnow.Proofs.Numeral.Digits
import Winnow.Proofs.Text.Basic

/-!
# Reading back the texts of binary64 numbers

The text of a positive decimal has three parts: digits, a fraction and an exponent, of which one of
the last two may be missing.  Its digits are those of the decimal, with zeros where the point asks
for them, so what is read has the rank of the decimal that was written.

* `Binary64.Parts` : the parts of a decimal text, the decimal that they make, and when they are well
  formed;
* `Binary64.toDecimal?_chars` : well-formed parts are read as their decimal;
* `Binary64.exists_parts` : the text of a finite number has well-formed parts of its rank;
* `Binary64.ofText?_text` : the text of a number is read back as the number.
-/

namespace Winnow.Binary64

/-- The parts of a decimal text: the digits before and after the point, and the exponent. -/
structure Parts where
  whole : List Char
  fraction : List Char
  exponent : Option Int

namespace Parts

/-- The fraction as it is written. -/
def fractionChars : List Char → List Char
  | [] => []
  | d :: ds => '.' :: d :: ds

/-- The exponent as it is written, with a sign and at least two digits. -/
def exponentChars : Option Int → List Char
  | none => []
  | some n => 'e' :: (if n < 0 then '-' else '+') :: paddedDigits 2 n.natAbs

/-- The text of some parts. -/
def chars (p : Parts) : List Char :=
  p.whole ++ (fractionChars p.fraction ++ exponentChars p.exponent)

/-- The decimal that the parts make. -/
def value (p : Parts) : Decimal :=
  ⟨Nat.ofDigitChars 10 (p.whole ++ p.fraction) 0, p.exponent.getD 0 - p.fraction.length⟩

/-- Parts as they are written: a whole part without zeros in front, and no integer. -/
structure WellFormed (p : Parts) : Prop where
  head : ∃ d ds, p.whole = d :: ds ∧ (d = '0' → ds = [])
  whole : ∀ c ∈ p.whole, c.isDigit
  fraction : ∀ c ∈ p.fraction, c.isDigit
  inexact : ¬ (p.fraction = [] ∧ p.exponent = none)

theorem fractionChars_of_ne_nil {ds : List Char} (hds : ds ≠ []) :
    fractionChars ds = '.' :: ds := by
  cases ds with
  | nil => exact absurd rfl hds
  | cons d ds => rfl

end Parts

/-! ## Reading parts -/

theorem spanDigits_append {ds rest : List Char} (hds : ∀ c ∈ ds, c.isDigit)
    (hrest : ∀ c ∈ rest.head?, c.isDigit = false) :
    spanDigits (ds ++ rest) = (ds.map (·.toNat - 0x30), rest) := by
  unfold spanDigits
  rw [List.takeWhile_append_of_pos hds, List.dropWhile_append_of_pos hds]
  cases rest with
  | nil => rw [List.takeWhile_nil, List.append_nil, List.dropWhile_nil]
  | cons c rest =>
    have hc : ¬ c.isDigit = true := by rw [hrest c rfl]; decide
    rw [List.takeWhile_cons_of_neg hc, List.dropWhile_cons_of_neg hc, List.append_nil]

theorem paddedDigits_ne_nil (width n : Nat) : paddedDigits width n ≠ [] := by
  have hne : Nat.toDigits 10 n ≠ [] := Nat.toDigits_ne_nil
  unfold paddedDigits
  simp only [ne_eq, List.append_eq_nil_iff, hne, and_false, not_false_eq_true]

theorem takeExponent_exponentChars (exponent : Option Int) :
    takeExponent (Parts.exponentChars exponent) = some (exponent.getD 0, []) := by
  cases exponent with
  | none => rfl
  | some n =>
    have hspan : spanDigits (paddedDigits 2 n.natAbs) =
        ((paddedDigits 2 n.natAbs).map (·.toNat - 0x30), []) := by
      have happend := @spanDigits_append (paddedDigits 2 n.natAbs) []
        (fun _ => isDigit_of_mem_paddedDigits) (by simp)
      rwa [List.append_nil] at happend
    have hne : ¬ ((paddedDigits 2 n.natAbs).map (·.toNat - 0x30)).isEmpty = true := by
      rw [List.isEmpty_iff, List.map_eq_nil_iff]
      exact paddedDigits_ne_nil 2 n.natAbs
    unfold Parts.exponentChars takeExponent
    by_cases hn : n < 0
    · have hvalue : -((n.natAbs : Nat) : Int) = n := by omega
      simp only [hn, if_true, true_or, hspan, hne, if_false, valueOf_paddedDigits, hvalue,
        Option.getD_some, Bool.false_eq_true]
    · have hvalue : ((n.natAbs : Nat) : Int) = n := by omega
      simp only [hn, if_true, true_or, hspan, hne, if_false, valueOf_paddedDigits, hvalue,
        Option.getD_some, Bool.false_eq_true]

theorem head?_exponentChars (exponent : Option Int) :
    ∀ c ∈ (Parts.exponentChars exponent).head?, c.isDigit = false := by
  cases exponent with
  | none => rintro c ⟨⟩
  | some n =>
    rintro c ⟨⟩
    rfl

theorem head?_fractionChars (fraction : List Char) (exponent : Option Int) :
    ∀ c ∈ (Parts.fractionChars fraction ++ Parts.exponentChars exponent).head?,
      c.isDigit = false := by
  cases fraction with
  | nil => exact head?_exponentChars exponent
  | cons d ds =>
    rintro c ⟨⟩
    rfl

theorem takeFraction_fractionChars {fraction : List Char} (hfraction : ∀ c ∈ fraction, c.isDigit)
    (exponent : Option Int) :
    takeFraction (Parts.fractionChars fraction ++ Parts.exponentChars exponent) =
      (fraction.map (·.toNat - 0x30), Parts.exponentChars exponent) := by
  cases fraction with
  | nil =>
    cases exponent with
    | none => rfl
    | some n => rfl
  | cons d ds => exact spanDigits_append hfraction (head?_exponentChars exponent)

/-- **Well-formed parts are read as their decimal.** -/
theorem toDecimal?_chars {p : Parts} (hp : p.WellFormed) : toDecimal? p.chars = some p.value := by
  obtain ⟨d, ds, hhead, -⟩ := hp.head
  have hspan := spanDigits_append hp.whole (head?_fractionChars p.fraction p.exponent)
  have hdigits : Numeral.valueOf (p.whole.map (·.toNat - 0x30) ++ p.fraction.map (·.toNat - 0x30)) =
      Nat.ofDigitChars 10 (p.whole ++ p.fraction) 0 := by
    rw [← List.map_append]
    exact Numeral.valueOf_chars _
  have hne : (p.whole.map (·.toNat - 0x30)).isEmpty = false := by
    rw [hhead]
    rfl
  unfold toDecimal? Parts.chars Parts.value
  simp only [hspan, takeFraction_fractionChars hp.fraction, takeExponent_exponentChars,
    Option.bind_eq_bind, Option.bind_some, hne, Bool.false_and, List.isEmpty_nil, Bool.not_true,
    Bool.or_self, Bool.false_eq_true, if_false, hdigits, List.length_map]

/-! ## Parts of a decimal text -/

/-- The exponent of the leading digit of a decimal. -/
def leadOf (x : Decimal) : Int := (Nat.toDigits 10 x.digits).length + x.exponent - 1

/-- The digits of a decimal are its significant ones and zeros. -/
theorem exists_zeros (x : Decimal) : ∃ zeros,
    Nat.toDigits 10 x.digits = significantDigits x ++ List.replicate zeros '0' := by
  unfold significantDigits
  generalize Nat.toDigits 10 x.digits = cs
  have hzeros : cs.reverse.takeWhile (· == '0') =
      List.replicate (cs.reverse.takeWhile (· == '0')).length '0' :=
    List.eq_replicate_of_mem fun c hc => beq_iff_eq.mp (List.all_eq_true.mp List.all_takeWhile c hc)
  refine ⟨(cs.reverse.takeWhile (· == '0')).length, ?_⟩
  rw [← List.reverse_inj, List.reverse_append, List.reverse_replicate, ← hzeros,
    List.reverse_reverse, List.takeWhile_append_dropWhile]

theorem significantDigits_head {x : Decimal} (hx : 0 < x.digits) :
    ∃ d ds, significantDigits x = d :: ds ∧ d ≠ '0' := by
  obtain ⟨zeros, hzeros⟩ := exists_zeros x
  obtain ⟨d, ds, hdigits, hd⟩ := Numeral.toDigits_head hx
  rw [hdigits] at hzeros
  cases hsignificant : significantDigits x with
  | nil =>
    rw [hsignificant, List.nil_append] at hzeros
    have hmem : d ∈ List.replicate zeros '0' := hzeros ▸ List.mem_cons_self
    exact absurd (List.eq_of_mem_replicate hmem) hd
  | cons e es =>
    rw [hsignificant] at hzeros
    exact ⟨e, es, rfl, (List.cons.inj hzeros).1 ▸ hd⟩

theorem isDigit_of_mem_significantDigits {x : Decimal} {c : Char}
    (hc : c ∈ significantDigits x) : c.isDigit := by
  obtain ⟨zeros, hzeros⟩ := exists_zeros x
  have hmem : c ∈ Nat.toDigits 10 x.digits := by
    rw [hzeros]
    exact List.mem_append_left _ hc
  exact Nat.isDigit_of_mem_toDigits (by decide) (by decide) hmem

/-- A decimal has the rank of its significant digits, placed by the exponent of the first. -/
theorem rankOfDecimal_significantDigits (x : Decimal) :
    rankOfDecimal x = rankOfDecimal ⟨Nat.ofDigitChars 10 (significantDigits x) 0,
      leadOf x + 1 - (significantDigits x).length⟩ := by
  obtain ⟨zeros, hzeros⟩ := exists_zeros x
  have hdigits : x.digits = Nat.ofDigitChars 10 (significantDigits x) 0 * 10 ^ zeros := by
    conv_lhs => rw [← @Nat.ofDigitChars_ten_toDigits x.digits, hzeros]
    rw [Nat.ofDigitChars_append, Nat.ofDigitChars_replicate_zero, Nat.mul_comm]
  have hexponent : x.exponent + zeros = leadOf x + 1 - (significantDigits x).length := by
    have hlength := congrArg List.length hzeros
    rw [List.length_append, List.length_replicate] at hlength
    unfold leadOf
    omega
  obtain ⟨digits, exponent⟩ := x
  rw [← hexponent, ← rankOfDecimal_zeros, ← hdigits]

theorem decimalText_def (x : Decimal) :
    decimalText x =
      if -4 ≤ leadOf x ∧ leadOf x < 0 then
        ['0', '.'] ++ List.replicate (-leadOf x - 1).toNat '0' ++ significantDigits x
      else if 0 ≤ leadOf x ∧ leadOf x < 16 then
        if (significantDigits x).length ≤ (leadOf x).toNat + 1 then
          significantDigits x ++
            List.replicate ((leadOf x).toNat + 1 - (significantDigits x).length) '0' ++ ['.', '0']
        else
          (significantDigits x).take ((leadOf x).toNat + 1) ++ ['.'] ++
            (significantDigits x).drop ((leadOf x).toNat + 1)
      else
        (significantDigits x).take 1 ++
          (if (significantDigits x).length ≤ 1 then [] else '.' :: (significantDigits x).drop 1) ++
          ['e', if leadOf x < 0 then '-' else '+'] ++
          List.replicate (2 - (Nat.toDigits 10 (leadOf x).natAbs).length) '0' ++
          Nat.toDigits 10 (leadOf x).natAbs := rfl

theorem isDigit_of_mem_zero : ∀ c ∈ ['0'], c.isDigit := by
  intro c hc
  rw [List.mem_singleton.mp hc]
  rfl

/-- What the parts of the text of a decimal have to be. -/
structure PartsOf (x : Decimal) (p : Parts) : Prop where
  wellFormed : p.WellFormed
  chars : decimalText x = p.chars
  rank : rankOfDecimal p.value = rankOfDecimal x

/-- Below one, all digits stand after the point. -/
theorem partsOf_below {x : Decimal} (hx : 0 < x.digits) (hlead : -4 ≤ leadOf x ∧ leadOf x < 0) :
    PartsOf x
      ⟨['0'], List.replicate (-leadOf x - 1).toNat '0' ++ significantDigits x, none⟩ := by
  obtain ⟨d, ds, hhead, -⟩ := significantDigits_head hx
  have hne : List.replicate (-leadOf x - 1).toNat '0' ++ significantDigits x ≠ [] := by
    rw [hhead]
    exact List.append_ne_nil_of_right_ne_nil _ (List.cons_ne_nil d ds)
  refine ⟨⟨⟨'0', [], rfl, fun _ => rfl⟩, ?_, ?_, fun h => hne h.1⟩, ?_, ?_⟩
  · exact isDigit_of_mem_zero
  · intro c hc
    rcases List.mem_append.mp hc with hc | hc
    · rw [List.eq_of_mem_replicate hc]
      decide
    · exact isDigit_of_mem_significantDigits hc
  · unfold Parts.chars
    rw [decimalText_def, if_pos hlead, Parts.fractionChars_of_ne_nil hne]
    simp only [Parts.exponentChars, List.append_nil, List.cons_append, List.nil_append]
  · have hvalue : Nat.ofDigitChars 10
        (['0'] ++ (List.replicate (-leadOf x - 1).toNat '0' ++ significantDigits x)) 0 =
        Nat.ofDigitChars 10 (significantDigits x) 0 := by
      rw [Nat.ofDigitChars_append, Nat.ofDigitChars_append, Nat.ofDigitChars_replicate_zero]
      rfl
    have hexponent : (none : Option Int).getD 0 -
        ((List.replicate (-leadOf x - 1).toNat '0' ++ significantDigits x).length : Nat) =
        leadOf x + 1 - (significantDigits x).length := by
      rw [List.length_append, List.length_replicate, Option.getD_none]
      omega
    rw [rankOfDecimal_significantDigits x]
    unfold Parts.value
    rw [hvalue, hexponent]

/-- An integer is filled up with zeros, and one more stands after the point. -/
theorem partsOf_integer {x : Decimal} (hx : 0 < x.digits) (hlead : 0 ≤ leadOf x ∧ leadOf x < 16)
    (hlength : (significantDigits x).length ≤ (leadOf x).toNat + 1) :
    PartsOf x ⟨significantDigits x ++
      List.replicate ((leadOf x).toNat + 1 - (significantDigits x).length) '0', ['0'], none⟩ := by
  obtain ⟨d, ds, hhead, hd⟩ := significantDigits_head hx
  refine ⟨⟨⟨d, ds ++ List.replicate ((leadOf x).toNat + 1 - (significantDigits x).length) '0', ?_,
    fun h => absurd h hd⟩, ?_, ?_, fun h => List.cons_ne_nil _ _ h.1⟩, ?_, ?_⟩
  · rw [hhead, List.cons_append]
  · intro c hc
    rcases List.mem_append.mp hc with hc | hc
    · exact isDigit_of_mem_significantDigits hc
    · rw [List.eq_of_mem_replicate hc]
      decide
  · exact isDigit_of_mem_zero
  · have hsmall : ¬ (-4 ≤ leadOf x ∧ leadOf x < 0) := by omega
    rw [decimalText_def, if_neg hsmall, if_pos hlead, if_pos hlength]
    rfl
  · have hvalue : Nat.ofDigitChars 10 (significantDigits x ++
        List.replicate ((leadOf x).toNat + 1 - (significantDigits x).length) '0' ++ ['0']) 0 =
        Nat.ofDigitChars 10 (significantDigits x) 0 *
          10 ^ ((leadOf x).toNat + 1 - (significantDigits x).length + 1) := by
      rw [List.append_assoc, ← List.replicate_succ', Nat.ofDigitChars_append,
        Nat.ofDigitChars_replicate_zero, Nat.mul_comm]
    have hexponent : (none : Option Int).getD 0 - ((['0'] : List Char).length : Nat) +
        ((leadOf x).toNat + 1 - (significantDigits x).length + 1 : Nat) =
        leadOf x + 1 - (significantDigits x).length := by
      rw [List.length_singleton, Option.getD_none]
      omega
    rw [rankOfDecimal_significantDigits x]
    unfold Parts.value
    rw [hvalue, rankOfDecimal_zeros, hexponent]

/-- The digits of a decimal, cut at a place. -/
theorem partsOf_cut {x : Decimal} (hx : 0 < x.digits) {whole : Nat} (hwhole : 0 < whole)
    {exponent : Option Int} (hcut : exponent = none → whole < (significantDigits x).length)
    (hplace : exponent.getD 0 = leadOf x + 1 - (min whole (significantDigits x).length : Nat))
    (hchars : decimalText x = (significantDigits x).take whole ++
      (Parts.fractionChars ((significantDigits x).drop whole) ++ Parts.exponentChars exponent)) :
    PartsOf x ⟨(significantDigits x).take whole, (significantDigits x).drop whole, exponent⟩ := by
  obtain ⟨d, ds, hhead, hd⟩ := significantDigits_head hx
  refine ⟨⟨⟨d, ds.take (whole - 1), ?_, fun h => absurd h hd⟩, ?_, ?_, ?_⟩, hchars, ?_⟩
  · rw [hhead]
    exact List.take_cons hwhole
  · exact fun c hc => isDigit_of_mem_significantDigits (List.mem_of_mem_take hc)
  · exact fun c hc => isDigit_of_mem_significantDigits (List.mem_of_mem_drop hc)
  · rintro ⟨hdrop, hnone⟩
    have hle := List.drop_eq_nil_iff.mp hdrop
    have hlt := hcut hnone
    omega
  · have hexponent : exponent.getD 0 - (((significantDigits x).drop whole).length : Nat) =
        leadOf x + 1 - (significantDigits x).length := by
      rw [hplace, List.length_drop]
      omega
    rw [rankOfDecimal_significantDigits x]
    unfold Parts.value
    rw [List.take_append_drop, hexponent]

/-- **The text of a positive decimal has well-formed parts**, and they make a decimal of the same
rank. -/
theorem exists_partsOf {x : Decimal} (hx : 0 < x.digits) : ∃ p, PartsOf x p := by
  -- Two layouts cut the significant digits, after the point's place or after the first of them.
  by_cases hbelow : -4 ≤ leadOf x ∧ leadOf x < 0
  · exact ⟨_, partsOf_below hx hbelow⟩
  · by_cases hpositional : 0 ≤ leadOf x ∧ leadOf x < 16
    · by_cases hlength : (significantDigits x).length ≤ (leadOf x).toNat + 1
      · exact ⟨_, partsOf_integer hx hpositional hlength⟩
      · have hcut : (significantDigits x).drop ((leadOf x).toNat + 1) ≠ [] := by
          rw [ne_eq, List.drop_eq_nil_iff]
          exact hlength
        refine ⟨_, @partsOf_cut x hx _ (Nat.succ_pos (leadOf x).toNat) none
          (fun _ => Nat.lt_of_not_le hlength) ?_ ?_⟩
        · rw [Option.getD_none]
          omega
        · rw [decimalText_def, if_neg hbelow, if_pos hpositional, if_neg hlength,
            Parts.fractionChars_of_ne_nil hcut]
          simp only [Parts.exponentChars, List.append_nil, List.append_assoc, List.singleton_append]
    · obtain ⟨d, ds, hhead, -⟩ := significantDigits_head hx
      refine ⟨_, @partsOf_cut x hx _ Nat.one_pos (some (leadOf x)) (fun h => by cases h) ?_ ?_⟩
      · rw [hhead, Option.getD_some, List.length_cons]
        omega
      · rw [decimalText_def, if_neg hbelow, if_neg hpositional, hhead]
        simp only [Parts.exponentChars, paddedDigits, List.append_assoc, List.cons_append,
          List.nil_append]
        cases ds with
        | nil => rfl
        | cons e es => rfl

/-! ## Reading numbers -/

/-- The characters that the text of a finite number is made of. -/
def IsNumeralChar (c : Char) : Prop := c.isDigit ∨ c ∈ ['.', 'e', '-', '+']

/-- Such a character is none that reading removes or replaces. -/
theorem IsNumeralChar.plain {c : Char} (hc : IsNumeralChar c) :
    c ≠ '_' ∧ (CodePoint.scalar c).padsNumeral = false ∧ (CodePoint.scalar c).plainChar = c := by
  have hdigits : ∀ k < 10, Char.ofNat (0x30 + k) ≠ '_' ∧
      (CodePoint.scalar (Char.ofNat (0x30 + k))).padsNumeral = false ∧
      (CodePoint.scalar (Char.ofNat (0x30 + k))).plainChar = Char.ofNat (0x30 + k) := by decide
  rcases hc with hdigit | hmark
  · obtain ⟨k, hk, rfl⟩ := exists_ofNat_of_isDigit hdigit
    exact hdigits k hk
  · simp only [List.mem_cons, List.not_mem_nil, or_false] at hmark
    rcases hmark with rfl | rfl | rfl | rfl
    · decide
    · decide
    · decide
    · decide

/-- The sign of a number as it is written. -/
def signChars (negative : Bool) : List Char := if negative then ['-'] else []

theorem isNumeralChar_of_mem {p : Parts} (hp : p.WellFormed) {negative : Bool} {c : Char}
    (hc : c ∈ signChars negative ++ p.chars) : IsNumeralChar c := by
  rcases List.mem_append.mp hc with hc | hc
  · cases negative with
    | true =>
      rw [List.mem_singleton.mp hc]
      exact .inr (by decide)
    | false => cases hc
  · rcases List.mem_append.mp hc with hc | hc
    · exact .inl (hp.whole c hc)
    · rcases List.mem_append.mp hc with hc | hc
      · cases hfraction : p.fraction with
        | nil =>
          rw [hfraction] at hc
          cases hc
        | cons d ds =>
          rw [hfraction] at hc
          rcases List.mem_cons.mp hc with rfl | hc
          · exact .inr (by decide)
          · exact .inl (hp.fraction c (hfraction ▸ hc))
      · cases hexponent : p.exponent with
        | none =>
          rw [hexponent] at hc
          cases hc
        | some n =>
          rw [hexponent] at hc
          rcases List.mem_cons.mp hc with rfl | hc
          · exact .inr (by decide)
          · rcases List.mem_cons.mp hc with hsign | hc
            · rw [hsign]
              split
              · exact .inr (by decide)
              · exact .inr (by decide)
            · exact .inl (isDigit_of_mem_paddedDigits hc)

theorem joinDigits_of_forall_ne (before : Char) {cs : List Char} (hcs : ∀ c ∈ cs, c ≠ '_') :
    joinDigits before cs = some cs := by
  induction cs generalizing before with
  | nil => rfl
  | cons c cs ih =>
    have hc : c ≠ '_' := hcs c List.mem_cons_self
    have htail := ih c fun d hd => hcs d (List.mem_cons_of_mem c hd)
    rw [joinDigits]
    · rw [if_neg hc, htail, Option.map_some]
    · exact fun _ _ h => absurd h hc

/-- What begins with a digit is neither a sign nor a name. -/
theorem ofChars?_digit {d : Char} {cs : List Char} (hd : d.isDigit) (hcs : ∀ c ∈ d :: cs, c ≠ '_')
    (negative : Bool) :
    ofChars? (signChars negative ++ d :: cs) = (toDecimal? (d :: cs)).map (ofDecimal negative) := by
  have hall : ∀ c ∈ signChars negative ++ d :: cs, c ≠ '_' := by
    intro c hc
    rcases List.mem_append.mp hc with hc | hc
    · cases negative with
      | true => exact List.mem_singleton.mp hc ▸ by decide
      | false => cases hc
    · exact hcs c hc
  obtain ⟨k, hk, rfl⟩ := exists_ofNat_of_isDigit hd
  unfold ofChars?
  rw [joinDigits_of_forall_ne ' ' hall]
  cases negative with
  | true => interval_cases k <;> rfl
  | false => interval_cases k <;> rfl

/-- **Well-formed parts are read as the number of their decimal.** -/
theorem ofChars?_chars {p : Parts} (hp : p.WellFormed) (negative : Bool) :
    ofChars? (signChars negative ++ p.chars) = some (ofDecimal negative p.value) := by
  obtain ⟨d, ds, hhead, -⟩ := hp.head
  have hd : d.isDigit := hp.whole d (hhead ▸ List.mem_cons_self)
  have hread := toDecimal?_chars hp
  have hplain : ∀ c ∈ p.chars, c ≠ '_' := fun c hc =>
    (@isNumeralChar_of_mem p hp false c hc).plain.1
  have hchars : p.chars =
      d :: (ds ++ (Parts.fractionChars p.fraction ++ Parts.exponentChars p.exponent)) := by
    unfold Parts.chars
    rw [hhead, List.cons_append]
  rw [hchars] at hread hplain ⊢
  rw [ofChars?_digit hd hplain, hread, Option.map_some]

/-- A text of characters that are neither removed nor replaced is read as it stands. -/
theorem ofText?_of_plain {cs : List Char} (hcs : ∀ c ∈ cs,
    (CodePoint.scalar c).padsNumeral = false ∧ (CodePoint.scalar c).plainChar = c) :
    ofText? (Text.ofChars cs) = ofChars? cs := by
  have htrim : (Text.ofChars cs).unpadded = Text.ofChars cs := by
    refine Text.trim_eq_self fun c hc => ?_
    obtain ⟨d, hd, rfl⟩ := List.mem_map.mp hc
    exact (hcs d hd).1
  have hplain : (Text.ofChars cs).map CodePoint.plainChar = cs := by
    rw [Text.ofChars, List.map_map]
    exact (List.map_congr_left fun c hc => (hcs c hc).2).trans (List.map_id cs)
  rw [ofText?, htrim, hplain]

theorem ofText?_ofChars {cs : List Char} (hcs : ∀ c ∈ cs, IsNumeralChar c) :
    ofText? (Text.ofChars cs) = ofChars? cs :=
  ofText?_of_plain fun c hc => (hcs c hc).plain.2

/-- Digits with a hyphen after them are no decimal. -/
theorem toDecimal?_hyphen {ds : List Char} (hds : ∀ c ∈ ds, c.isDigit) (rest : List Char) :
    toDecimal? (ds ++ '-' :: rest) = none := by
  have hhyphen : ∀ c ∈ ('-' :: rest).head?, c.isDigit = false := by
    rintro c ⟨⟩
    rfl
  have hspan := spanDigits_append hds hhyphen
  have hfraction : takeFraction ('-' :: rest) = ([], '-' :: rest) := rfl
  have hexponent : takeExponent ('-' :: rest) = some (0, '-' :: rest) := rfl
  simp [toDecimal?, hspan, hfraction, hexponent]

/-! ## Reading back -/

theorem chars_number (negative : Bool) (rank : Fin 0x7FF0000000000001) :
    (number negative rank).chars = signChars negative ++
      if rank.val = 0 then ['0', '.', '0']
      else if rank.val < topRank then decimalText (shortest rank.val)
      else ['i', 'n', 'f'] := rfl

/-- The text of a finite number has well-formed parts, and they make a decimal of its rank. -/
theorem exists_parts (negative : Bool) {rank : Fin 0x7FF0000000000001}
    (hrank : rank.val < topRank) :
    ∃ p : Parts, p.WellFormed ∧ (number negative rank).chars = signChars negative ++ p.chars ∧
      rankOfDecimal p.value = rank.val := by
  rcases Nat.eq_zero_or_pos rank.val with hzero | hpos
  · refine ⟨⟨['0'], ['0'], none⟩, ⟨⟨'0', [], rfl, fun _ => rfl⟩, ?_, ?_, ?_⟩, ?_, ?_⟩
    · exact isDigit_of_mem_zero
    · exact isDigit_of_mem_zero
    · exact fun h => List.cons_ne_nil _ _ h.1
    · rw [chars_number, if_pos hzero]
      rfl
    · rw [hzero]
      rfl
  · obtain ⟨p, hp⟩ := exists_partsOf (shortest_digits_pos hpos hrank)
    refine ⟨p, hp.wellFormed, ?_, hp.rank.trans (rankOfDecimal_shortest hrank)⟩
    rw [chars_number, if_neg (Nat.ne_of_gt hpos), if_pos hrank, hp.chars]

/-- **The text of a finite number is read back as the number.** -/
theorem ofText?_text {x : Binary64} (hx : x.isFinite) : ofText? x.text = some x := by
  cases x with
  | nan => cases hx
  | number negative rank =>
    have hrank : rank.val < topRank := of_decide_eq_true hx
    obtain ⟨p, hp, hchars, hvalue⟩ := exists_parts negative hrank
    rw [text, hchars, ofText?_ofChars fun c hc => isNumeralChar_of_mem hp hc, ofChars?_chars hp,
      ofDecimal, hvalue, ofRank, dif_pos rank.isLt]

end Winnow.Binary64

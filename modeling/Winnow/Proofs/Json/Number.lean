import Winnow.Json.Token
import Winnow.Proofs.Numeral.Digits

/-!
# Reading back JSON numbers

A number is scanned by its parts: a sign, a whole part, a fraction and an exponent.  Each part that
was written is found again, as long as what follows the number does not continue it.

* `Json.IsWhole`, `Json.IsFraction`, `Json.IsExponent` : the parts as they are written;
* `Json.EndsNumber` : what may follow a number;
* `Json.scanNumber_ofInt`, `Json.scanNumber_decimal` : a number without, and with, a fraction or an
  exponent.
-/

namespace Winnow.Json

/-- The whole part of a number: a zero alone, or digits that do not begin with one. -/
inductive IsWhole : Text → Prop
  | zero : IsWhole [.scalar '0']
  | digits {d : CodePoint} {ds : Text} (hd : isDigit d = true) (hzero : d ≠ .scalar '0')
    (hds : ∀ c ∈ ds, isDigit c = true) : IsWhole (d :: ds)

/-- The fraction of a number, if it has one. -/
inductive IsFraction : Text → Prop
  | none : IsFraction []
  | digits {ds : Text} (hne : ds ≠ []) (hds : ∀ c ∈ ds, isDigit c = true) :
    IsFraction (.scalar '.' :: ds)

/-- The exponent of a number, if it has one. -/
inductive IsExponent : Text → Prop
  | none : IsExponent []
  | digits {sign : CodePoint} {ds : Text} (hsign : sign = .scalar '-' ∨ sign = .scalar '+')
    (hne : ds ≠ []) (hds : ∀ c ∈ ds, isDigit c = true) :
    IsExponent (.scalar 'e' :: sign :: ds)

/-- What follows a number does not continue it. -/
def EndsNumber (rest : Text) : Prop :=
  ∀ c ∈ rest.head?, isDigit c = false ∧ c ≠ .scalar '.' ∧ c ≠ .scalar 'e' ∧ c ≠ .scalar 'E'

/-- The sign of a number. -/
def sign (negative : Bool) : Text := if negative then [.scalar '-'] else []

/-! ## Parts -/

theorem isDigit_ne {c : CodePoint} (hc : isDigit c = true) {d : Char}
    (hd : isDigit (.scalar d) = false) : c ≠ .scalar d := by
  rintro rfl
  rw [hd] at hc
  cases hc

theorem leadingDigits_append {ds rest : Text} (hds : ∀ c ∈ ds, isDigit c = true)
    (hrest : ∀ c ∈ rest.head?, isDigit c = false) : leadingDigits (ds ++ rest) = ds := by
  unfold leadingDigits
  rw [List.takeWhile_append_of_pos hds]
  cases rest with
  | nil => rw [List.takeWhile_nil, List.append_nil]
  | cons c cs =>
    have hc : isDigit c = false := hrest c rfl
    rw [List.takeWhile_cons_of_neg (by rw [hc]; decide), List.append_nil]

theorem wholePart_append {whole rest : Text} (hwhole : IsWhole whole)
    (hrest : ∀ c ∈ rest.head?, isDigit c = false) : wholePart (whole ++ rest) = whole := by
  cases hwhole with
  | zero => rfl
  | @digits d ds hd hzero hds =>
    have hall : ∀ c ∈ d :: ds, isDigit c = true := by
      intro c hc
      rcases List.mem_cons.mp hc with rfl | hc
      · exact hd
      · exact hds c hc
    have hleading := leadingDigits_append hall hrest
    rw [List.cons_append] at hleading ⊢
    unfold wholePart
    split
    · rename_i cs heq
      exact absurd (List.cons.inj heq).1 hzero
    · exact hleading

theorem fractionPart_append {fraction rest : Text} (hfraction : IsFraction fraction)
    (hrest : ∀ c ∈ rest.head?, isDigit c = false ∧ c ≠ .scalar '.') :
    fractionPart (fraction ++ rest) = fraction := by
  cases hfraction with
  | none =>
    rw [List.nil_append]
    unfold fractionPart
    split
    · exact absurd rfl (hrest _ rfl).2
    · rfl
  | @digits ds hne hds =>
    have hleading : leadingDigits (ds ++ rest) = ds :=
      leadingDigits_append hds fun c hc => (hrest c hc).1
    rw [List.cons_append]
    simp only [fractionPart, hleading, List.isEmpty_iff, hne, if_false]

theorem exponentPart_append {exponent rest : Text} (hexponent : IsExponent exponent)
    (hrest : EndsNumber rest) : exponentPart (exponent ++ rest) = exponent := by
  cases hexponent with
  | none =>
    rw [List.nil_append]
    unfold exponentPart
    split
    · rename_i c cs
      obtain ⟨_, _, he, hE⟩ := hrest c rfl
      have hletter : ¬ (c = .scalar 'e' ∨ c = .scalar 'E') := by
        rintro (h | h)
        · exact he h
        · exact hE h
      rw [if_neg hletter]
    · rfl
  | @digits s ds hsign hne hds =>
    have hleading : leadingDigits (ds ++ rest) = ds :=
      leadingDigits_append hds fun c hc => (hrest c hc).1
    have hs : exponentSign (s :: (ds ++ rest)) = [s] := by
      rcases hsign with rfl | rfl <;> rfl
    simp only [List.cons_append, exponentPart, true_or, if_true, hs, List.length_singleton,
      List.drop_succ_cons, List.drop_zero, hleading, List.isEmpty_iff, hne, if_false,
      List.nil_append]

/-! ## Numbers -/

variable {negative : Bool} {whole fraction exponent rest : Text}

theorem IsWhole.head (hwhole : IsWhole whole) : ∃ d ds, whole = d :: ds ∧ isDigit d = true := by
  cases hwhole with
  | zero => exact ⟨_, _, rfl, rfl⟩
  | digits hd _ _ => exact ⟨_, _, rfl, hd⟩

theorem head?_fraction (hfraction : IsFraction fraction) {t : Text}
    (ht : ∀ c ∈ t.head?, isDigit c = false) : ∀ c ∈ (fraction ++ t).head?, isDigit c = false := by
  cases hfraction with
  | none => exact ht
  | digits _ _ =>
    rintro c hc
    cases hc
    rfl

theorem head?_exponent (hexponent : IsExponent exponent) (hrest : EndsNumber rest) :
    ∀ c ∈ (exponent ++ rest).head?, isDigit c = false ∧ c ≠ .scalar '.' := by
  cases hexponent with
  | none => exact fun c hc => ⟨(hrest c hc).1, (hrest c hc).2.1⟩
  | digits _ _ _ =>
    rintro c hc
    cases hc
    exact ⟨rfl, by decide⟩

/-- The sign is found again, and nothing is taken for one. -/
theorem sign_append (hwhole : IsWhole whole) (t : Text) :
    (if (sign negative ++ (whole ++ t)).head? = some (.scalar '-') then [.scalar '-'] else []) =
      sign negative := by
  cases negative with
  | true => rfl
  | false =>
    obtain ⟨d, ds, rfl, hd⟩ := hwhole.head
    have hne : d ≠ .scalar '-' := isDigit_ne hd (by decide)
    simp only [sign, Bool.false_eq_true, if_false, List.nil_append, List.cons_append,
      List.head?_cons, Option.some.injEq, hne]

/-- **A number is scanned by its parts**, whatever follows that does not continue it. -/
theorem scanNumber_parts (hwhole : IsWhole whole) (hfraction : IsFraction fraction)
    (hexponent : IsExponent exponent) (hrest : EndsNumber rest) :
    scanNumber (sign negative ++ (whole ++ (fraction ++ (exponent ++ rest)))) =
      (if fraction.isEmpty ∧ exponent.isEmpty then
        if whole.length > Numeral.digitLimit then .longInteger whole.length
        else .plain (.int (if (sign negative).isEmpty then wholeValue whole else -wholeValue whole))
      else
        .plain (.float
          ((Binary64.ofText? (sign negative ++ whole ++ fraction ++ exponent)).getD .nan)),
      (sign negative ++ whole ++ fraction ++ exponent).length) := by
  have hafterExponent := head?_exponent hexponent hrest
  have hafterFraction := head?_fraction hfraction fun c hc => (hafterExponent c hc).1
  have hne : whole ≠ [] := by
    obtain ⟨d, ds, hhead, -⟩ := hwhole.head
    rw [hhead]
    exact List.cons_ne_nil d ds
  have hwholeFound := wholePart_append hwhole hafterFraction
  have hfractionFound := fractionPart_append hfraction hafterExponent
  have hexponentFound := exponentPart_append hexponent hrest
  have hdropSign : (sign negative ++ (whole ++ (fraction ++ (exponent ++ rest)))).drop
      (sign negative).length = whole ++ (fraction ++ (exponent ++ rest)) := List.drop_left
  have hdropWhole : (sign negative ++ (whole ++ (fraction ++ (exponent ++ rest)))).drop
      (sign negative ++ whole).length = fraction ++ (exponent ++ rest) := by
    rw [← List.append_assoc, List.drop_left]
  have hdropFraction : (sign negative ++ (whole ++ (fraction ++ (exponent ++ rest)))).drop
      (sign negative ++ whole ++ fraction).length = exponent ++ rest := by
    rw [← List.append_assoc, ← List.append_assoc, List.drop_left]
  unfold scanNumber
  simp only [sign_append hwhole, hdropSign, hwholeFound, hdropWhole, hfractionFound, hdropFraction,
    hexponentFound, List.isEmpty_iff, hne, if_false]
  split
  · split <;> rfl
  · rfl

/-- A number with a fraction or an exponent is scanned as a binary64 number. -/
theorem scanNumber_decimal (hwhole : IsWhole whole) (hfraction : IsFraction fraction)
    (hexponent : IsExponent exponent) (hrest : EndsNumber rest)
    (hparts : ¬ (fraction = [] ∧ exponent = [])) {x : Binary64}
    (hx : Binary64.ofText? (sign negative ++ whole ++ fraction ++ exponent) = some x) :
    scanNumber (sign negative ++ whole ++ fraction ++ exponent ++ rest) =
      (.plain (.float x), (sign negative ++ whole ++ fraction ++ exponent).length) := by
  have hscan := @scanNumber_parts negative _ _ _ _ hwhole hfraction hexponent hrest
  simp only [List.isEmpty_iff, if_neg hparts, hx, Option.getD_some] at hscan
  rw [← hscan]
  simp only [List.append_assoc]

/-- An integer with more digits than are converted is refused. -/
theorem scanNumber_longInteger (hwhole : IsWhole whole)
    (hlimit : Numeral.digitLimit < whole.length) (hrest : EndsNumber rest) :
    scanNumber (whole ++ rest) = (.longInteger whole.length, whole.length) := by
  have hscan := @scanNumber_parts false _ _ _ _ hwhole .none .none hrest
  simpa [sign, hlimit] using hscan

/-! ## Integers -/

theorem isDigit_scalar {c : Char} (hc : c.isDigit) : isDigit (.scalar c) = true := by
  obtain ⟨hlow, hhigh⟩ := isDigit_bounds hc
  unfold isDigit
  rw [Bool.and_eq_true, decide_eq_true_iff, decide_eq_true_iff]
  exact ⟨hlow, hhigh⟩

theorem isDigit_of_mem_digits {n : Nat} {c : CodePoint} (hc : c ∈ Numeral.digits n) :
    isDigit c = true := by
  obtain ⟨d, hd, rfl⟩ := List.mem_map.mp hc
  exact isDigit_scalar (Nat.isDigit_of_mem_toDigits (by decide) (by decide) hd)

theorem isWhole_digits (n : Nat) : IsWhole (Numeral.digits n) := by
  rcases Nat.eq_zero_or_pos n with rfl | hn
  · exact .zero
  · obtain ⟨d, ds, hds, hd⟩ := Numeral.toDigits_head hn
    have hall : ∀ c ∈ Numeral.digits n, isDigit c = true := fun c hc => isDigit_of_mem_digits hc
    unfold Numeral.digits at hall ⊢
    rw [hds] at hall ⊢
    refine .digits (hall _ List.mem_cons_self) ?_ fun c hc => hall c (List.mem_cons_of_mem _ hc)
    exact fun h => hd (CodePoint.scalar.inj h)

theorem wholeValue_digits (n : Nat) : wholeValue (Numeral.digits n) = n := by
  unfold wholeValue Numeral.digits Text.ofChars
  rw [List.map_map]
  exact Numeral.valueOf_toDigits n

/-- An integer that is written has a sign and the digits of its magnitude, and not too many. -/
theorem ofInt_eq {n : Int} {t : Text} (ht : Numeral.ofInt n = .ok t) :
    t = sign (decide (n < 0)) ++ Numeral.digits n.natAbs ∧
      ¬ Numeral.digitLimit < (Numeral.digits n.natAbs).length := by
  unfold Numeral.ofInt at ht
  split at ht
  · cases ht
  · rename_i hlimit
    cases ht
    refine ⟨?_, hlimit⟩
    unfold Numeral.ofIntUnlimited sign
    by_cases hn : n < 0
    · simp [hn]
    · simp [hn]

/-- **An integer that is written is scanned back.** -/
theorem scanNumber_ofInt {n : Int} {t : Text} (ht : Numeral.ofInt n = .ok t)
    (hrest : EndsNumber rest) : scanNumber (t ++ rest) = (.plain (.int n), t.length) := by
  obtain ⟨rfl, hlimit⟩ := ofInt_eq ht
  have hscan := @scanNumber_parts (decide (n < 0)) _ _ _ _ (isWhole_digits n.natAbs) .none .none
    hrest
  simp only [List.isEmpty_nil, and_self, if_true, hlimit, if_false, wholeValue_digits,
    List.nil_append, List.append_nil] at hscan
  have hvalue : (if (sign (decide (n < 0))).isEmpty then (n.natAbs : Int) else -n.natAbs) = n := by
    by_cases hn : n < 0
    · simp only [hn, decide_true, sign, if_true, List.isEmpty_cons, Bool.false_eq_true, if_false]
      omega
    · simp only [hn, decide_false, sign, Bool.false_eq_true, if_false, List.isEmpty_nil, if_true]
      omega
  rw [hvalue] at hscan
  rw [List.append_assoc, hscan]

end Winnow.Json

import Mathlib.Tactic.IntervalCases
import Winnow.Json.Printer
import Winnow.Proofs.Binary64.Text
import Winnow.Proofs.Json.Number
import Winnow.Proofs.Json.String

/-!
# Tokens of written texts

* `Json.tokensFrom_token` : a token that is scanned is the first of a text, and the others are those
  of what follows it;
* `Json.scanToken_number`, `Json.scanToken_string` : the tokens of numbers and of strings.
-/

namespace Winnow.Json

/-! ## Cutting -/

theorem tokensFrom_skip (place : Nat) (before rest : Text) :
    tokensFrom place before.length (before ++ rest) =
      tokensFrom (place + before.length) 0 rest := by
  induction before generalizing place with
  | nil => rfl
  | cons c before ih =>
    have hplace : place + 1 + before.length = place + (before.length + 1) := by omega
    rw [List.length_cons, List.cons_append, tokensFrom, ih, hplace]

/-- A token that is scanned comes first, and then those of what follows it. -/
theorem tokensFrom_token (place : Nat) {c : CodePoint} {cs rest : Text} {token : Token}
    (hblank : isBlank c = false) (hscan : scanToken (c :: (cs ++ rest)) = (token, cs.length + 1)) :
    tokensFrom place 0 (c :: (cs ++ rest)) =
      ⟨place, token⟩ :: tokensFrom (place + (cs.length + 1)) 0 rest := by
  have hplace : place + 1 + cs.length = place + (cs.length + 1) := by omega
  rw [tokensFrom, hblank, if_neg Bool.false_ne_true]
  simp only [hscan]
  rw [tokensFrom_skip, hplace]

theorem tokensFrom_blank (place : Nat) {c : CodePoint} (hblank : isBlank c = true) (rest : Text) :
    tokensFrom place 0 (c :: rest) = tokensFrom (place + 1) 0 rest := by
  rw [tokensFrom, hblank, if_pos rfl]

/-! ## Numbers -/

/-- How a number begins: with a digit, perhaps after a sign. -/
def BeginsNumber (t : Text) : Prop :=
  ∃ d cs, isDigit d = true ∧ (t = d :: cs ∨ t = .scalar '-' :: d :: cs)

theorem beginsNumber_append {negative : Bool} {whole : Text} (hwhole : IsWhole whole) (t : Text) :
    BeginsNumber (sign negative ++ (whole ++ t)) := by
  obtain ⟨d, cs, rfl, hd⟩ := hwhole.head
  cases negative with
  | true => exact ⟨d, cs ++ t, hd, .inr rfl⟩
  | false => exact ⟨d, cs ++ t, hd, .inl rfl⟩

theorem isDigit_cases {d : CodePoint} (hd : isDigit d = true) :
    ∃ k < 10, d = .scalar (Char.ofNat (0x30 + k)) := by
  rw [isDigit, Bool.and_eq_true, decide_eq_true_iff, decide_eq_true_iff] at hd
  cases d with
  | surrogate offset =>
    have hvalue : (CodePoint.surrogate offset).toNat = 0xD800 + offset.val := rfl
    omega
  | scalar c =>
    obtain ⟨k, hk, rfl⟩ := exists_ofNat_of_isDigit (Char.isDigit_iff_toNat.mpr hd)
    exact ⟨k, hk, rfl⟩

/-- **Where a number begins, it is scanned**: no word begins there, and nothing else does. -/
theorem scanToken_number {t : Text} (ht : BeginsNumber t) : scanToken t = scanNumber t := by
  obtain ⟨d, cs, hd, hbegins⟩ := ht
  obtain ⟨k, hk, rfl⟩ := isDigit_cases hd
  rcases hbegins with rfl | rfl
  · interval_cases k <;> rfl
  · interval_cases k <;> rfl

theorem isBlank_number {c : CodePoint} {cs : Text} (ht : BeginsNumber (c :: cs)) :
    isBlank c = false := by
  obtain ⟨d, ds, hd, hbegins⟩ := ht
  obtain ⟨k, hk, rfl⟩ := isDigit_cases hd
  rcases hbegins with h | h
  · cases h
    interval_cases k <;> rfl
  · cases h
    rfl

theorem forall_isDigit_ofChars {cs : List Char} (hcs : ∀ c ∈ cs, c.isDigit) :
    ∀ c ∈ Text.ofChars cs, isDigit c = true := by
  intro c hc
  obtain ⟨d, hd, rfl⟩ := List.mem_map.mp hc
  exact isDigit_scalar (hcs d hd)

open Binary64 (Parts)

theorem isWhole_ofChars {p : Parts} (hp : p.WellFormed) : IsWhole (Text.ofChars p.whole) := by
  obtain ⟨d, ds, hhead, hzero⟩ := hp.head
  have hall := forall_isDigit_ofChars hp.whole
  rw [hhead] at hall ⊢
  by_cases hd : d = '0'
  · rw [hd, hzero hd]
    exact .zero
  · exact .digits (hall _ List.mem_cons_self) (fun h => hd (CodePoint.scalar.inj h))
      fun c hc => hall c (List.mem_cons_of_mem _ hc)

theorem isFraction_ofChars {p : Parts} (hp : p.WellFormed) :
    IsFraction (Text.ofChars (Parts.fractionChars p.fraction)) := by
  have hall := forall_isDigit_ofChars hp.fraction
  cases hfraction : p.fraction with
  | nil => exact .none
  | cons d ds =>
    rw [hfraction] at hall
    exact .digits (List.cons_ne_nil _ _) hall

theorem isExponent_ofChars (exponent : Option Int) :
    IsExponent (Text.ofChars (Parts.exponentChars exponent)) := by
  cases exponent with
  | none => exact .none
  | some n =>
    have hne : Text.ofChars (paddedDigits 2 n.natAbs) ≠ [] := fun h =>
      Binary64.paddedDigits_ne_nil 2 n.natAbs (List.map_eq_nil_iff.mp h)
    refine .digits ?_ hne (forall_isDigit_ofChars fun c hc => isDigit_of_mem_paddedDigits hc)
    split
    · exact .inl rfl
    · exact .inr rfl

theorem ofChars_signChars (negative : Bool) :
    Text.ofChars (Binary64.signChars negative) = sign negative := by
  cases negative <;> rfl

/-- **The text of a finite binary64 number is a number**, and it is scanned back. -/
theorem scanToken_text {x : Binary64} (hx : x.isFinite) {rest : Text} (hrest : EndsNumber rest) :
    BeginsNumber x.text ∧ scanToken (x.text ++ rest) = (.plain (.float x), x.text.length) := by
  have hread := Binary64.ofText?_text hx
  cases x with
  | nan => cases hx
  | number negative rank =>
    obtain ⟨p, hp, hchars, -⟩ := Binary64.exists_parts negative (of_decide_eq_true hx)
    have htext : (Binary64.number negative rank).text = sign negative ++ Text.ofChars p.whole ++
        Text.ofChars (Parts.fractionChars p.fraction) ++
        Text.ofChars (Parts.exponentChars p.exponent) := by
      rw [Binary64.text, hchars, ← ofChars_signChars]
      simp only [Text.ofChars, Parts.chars, List.map_append, List.append_assoc]
    have hparts : ¬ (Text.ofChars (Parts.fractionChars p.fraction) = [] ∧
        Text.ofChars (Parts.exponentChars p.exponent) = []) := by
      rintro ⟨hfraction, hexponent⟩
      refine hp.inexact ⟨?_, ?_⟩
      · cases hf : p.fraction with
        | nil => rfl
        | cons d ds =>
          rw [hf] at hfraction
          cases hfraction
      · cases he : p.exponent with
        | none => rfl
        | some n =>
          rw [he] at hexponent
          cases hexponent
    rw [htext] at hread ⊢
    have hwhole := isWhole_ofChars hp
    have hscan := scanNumber_decimal hwhole (isFraction_ofChars hp) (isExponent_ofChars p.exponent)
      hrest hparts hread
    refine ⟨?_, ?_⟩
    · simp only [List.append_assoc]
      exact beginsNumber_append hwhole _
    · rw [← hscan]
      simp only [List.append_assoc]
      exact scanToken_number (beginsNumber_append hwhole _)

/-! ## Strings -/

/-- A string is scanned back. -/
theorem scanToken_string (ascii : Bool) {t : Text} (ht : ∀ c ∈ t, IsScalar c) (rest : Text) :
    scanToken (string ascii t ++ rest) = (.string t, (string ascii t).length) := by
  have hscan := scanString_string ascii ht rest
  have htext : string ascii t ++ rest =
      .scalar '"' :: (t.flatMap (escaped ascii) ++ .scalar '"' :: rest) := by
    simp only [string, List.append_assoc, List.cons_append, List.nil_append]
  rw [htext, scanToken]
  simp only [hscan]

/-! ## Words of one token -/

/-- A text is scanned as one token, whatever follows that does not continue a number. -/
structure Scans (w : Text) (token : Token) : Prop where
  head : ∃ c cs, w = c :: cs ∧ isBlank c = false
  scan : ∀ rest, EndsNumber rest → scanToken (w ++ rest) = (token, w.length)

theorem Scans.tokensFrom {w : Text} {token : Token} (h : Scans w token) (place : Nat) {rest : Text}
    (hrest : EndsNumber rest) :
    tokensFrom place 0 (w ++ rest) = ⟨place, token⟩ :: tokensFrom (place + w.length) 0 rest := by
  obtain ⟨c, cs, rfl, hblank⟩ := h.head
  exact tokensFrom_token place hblank (h.scan rest hrest)

theorem scans_null : Scans ("null" : Text) (.plain .null) := ⟨⟨_, _, rfl, rfl⟩, fun _ _ => rfl⟩

theorem scans_bool (b : Bool) :
    Scans (if b then "true" else "false" : Text) (.plain (.bool b)) := by
  cases b with
  | true => exact ⟨⟨_, _, rfl, rfl⟩, fun _ _ => rfl⟩
  | false => exact ⟨⟨_, _, rfl, rfl⟩, fun _ _ => rfl⟩

theorem BeginsNumber.head {t : Text} (ht : BeginsNumber t) :
    ∃ c cs, t = c :: cs ∧ isBlank c = false := by
  have hbegins := ht
  obtain ⟨d, cs, -, rfl | rfl⟩ := ht
  · exact ⟨_, _, rfl, isBlank_number hbegins⟩
  · exact ⟨_, _, rfl, isBlank_number hbegins⟩

theorem scans_int {n : Int} {t : Text} (ht : Numeral.ofInt n = .ok t) :
    Scans t (.plain (.int n)) := by
  obtain ⟨htext, -⟩ := ofInt_eq ht
  refine ⟨?_, fun rest hrest => ?_⟩
  · rw [htext, ← List.append_nil (Numeral.digits n.natAbs)]
    exact (beginsNumber_append (isWhole_digits _) _).head
  · rw [← scanNumber_ofInt ht hrest, htext, List.append_assoc]
    exact scanToken_number (beginsNumber_append (isWhole_digits _) _)

theorem scans_infinity (negative : Bool) :
    Scans (number (Binary64.infinity negative)) (.plain (.float (Binary64.infinity negative))) := by
  cases negative with
  | true => exact ⟨⟨_, _, rfl, rfl⟩, fun _ _ => rfl⟩
  | false => exact ⟨⟨_, _, rfl, rfl⟩, fun _ _ => rfl⟩

theorem scans_nan : Scans (number .nan) (.plain (.float .nan)) :=
  ⟨⟨_, _, rfl, rfl⟩, fun _ _ => rfl⟩

theorem scans_float (x : Binary64) : Scans (number x) (.plain (.float x)) := by
  cases x with
  | nan => exact scans_nan
  | number negative rank =>
    cases hfinite : (Binary64.number negative rank).isFinite with
    | true =>
      have htext : number (.number negative rank) = (Binary64.number negative rank).text := by
        unfold number
        rw [hfinite]
        rfl
      rw [htext]
      refine ⟨?_, fun rest hrest => (scanToken_text hfinite hrest).2⟩
      exact (@scanToken_text _ hfinite [] (fun c hc => by cases hc)).1.head
    | false =>
      have hrank : rank.val = Binary64.topRank := by
        have hge := of_decide_eq_false hfinite
        have hlt : rank.val < Binary64.topRank + 1 := rank.isLt
        omega
      have hinfinity : Binary64.number negative rank = Binary64.infinity negative := by
        have hfin : rank = ⟨Binary64.topRank, by decide⟩ := Fin.ext hrank
        rw [hfin]
        rfl
      rw [hinfinity]
      exact scans_infinity negative

theorem scans_string (ascii : Bool) {t : Text} (ht : ∀ c ∈ t, IsScalar c) :
    Scans (string ascii t) (.string t) :=
  ⟨⟨_, _, rfl, rfl⟩, fun rest _ => scanToken_string ascii ht rest⟩

end Winnow.Json

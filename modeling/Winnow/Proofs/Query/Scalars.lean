import Winnow.Proofs.Binary64.Order
import Winnow.Proofs.Filter.Entry
import Winnow.Proofs.Query.Keys

/-!
# Single values as parameters

The text of a single value carries no type.  It is read by the kind of its field, and what is read
equals the value: an integral number comes back as an integer, and everything else as it was.

* `FieldKind.HasItem` : the single values of a kind;
* `Query.isIntegerText_iff` : the texts that are taken for integers;
* `Query.isIntegerText_ofIntUnlimited`, `Query.isIntegerText_of_mem` : which numbers are integers;
* `Query.scalarValue_number` : a number is read back;
* `Query.scalarValue_toText` : so is every single value of a kind.
-/

namespace Winnow

/-- A single value of a kind: a text, a date that is written, a number within the digit limit or a
truth value. -/
def FieldKind.HasItem : FieldKind → Value → Prop
  | .text, .text _ | .select, .text _ | .array, .text _ => True
  | .date, .text t => t ≠ []
  | .number, .int n => (Numeral.digits n.natAbs).length ≤ Numeral.digitLimit
  | .number, .float x => x.isNaN = false
  | .boolean, .bool _ => True
  | _, _ => False

namespace Query

/-! ## Integers -/

/-- A text is a sign, if any, and a run of decimal digits, which a line break may follow. -/
structure IsInteger (t digits : Text) : Prop where
  ne_nil : digits ≠ []
  decimals : ∀ c ∈ digits, c.isDecimal = true
  spelled : ∃ sign ending, Numeral.IsSign sign ∧ IsEnding ending ∧ t = sign ++ digits ++ ending

theorem withoutFinalBreak_eq_self {t : Text} (h : .scalar '\n' ∉ t) : t.withoutFinalBreak = t := by
  unfold Text.withoutFinalBreak
  refine if_neg fun hlast => h ?_
  exact List.mem_of_getLast? hlast

theorem break_not_mem {digits : Text} (h : ∀ c ∈ digits, c.isDecimal = true) :
    .scalar '\n' ∉ digits := by
  intro hmem
  have hdecimal := h _ hmem
  revert hdecimal
  decide

theorem withoutFinalBreak_append {digits ending : Text} (h : ∀ c ∈ digits, c.isDecimal = true)
    (hending : IsEnding ending) : (digits ++ ending).withoutFinalBreak = digits := by
  rcases hending with rfl | rfl
  · rw [List.append_nil]
    exact withoutFinalBreak_eq_self (break_not_mem h)
  · unfold Text.withoutFinalBreak
    rw [List.getLast?_append, List.getLast?_singleton, Option.some_or, if_pos rfl,
      List.dropLast_concat]

theorem withoutFinalBreak_spec (t : Text) :
    ∃ ending, IsEnding ending ∧ t = t.withoutFinalBreak ++ ending := by
  unfold Text.withoutFinalBreak
  split
  · rename_i hlast
    exact ⟨_, .inr rfl, (List.dropLast_append_getLast? _ hlast).symm⟩
  · exact ⟨[], .inl rfl, (List.append_nil t).symm⟩

/-- **The texts that are taken for integers.** -/
theorem isIntegerText_iff {t : Text} : isIntegerText t = true ↔ ∃ digits, IsInteger t digits := by
  unfold isIntegerText
  dsimp only
  rw [Bool.and_eq_true, Bool.not_eq_true', List.isEmpty_eq_false_iff, List.all_eq_true]
  constructor
  · rintro ⟨hne, hdecimals⟩
    obtain ⟨sign, hsign, hsplit⟩ := Numeral.takeSign_spec t
    obtain ⟨ending, hending, hbreak⟩ := withoutFinalBreak_spec (Numeral.takeSign t).2
    refine ⟨_, hne, hdecimals, sign, ending, hsign, hending, ?_⟩
    rw [List.append_assoc, ← hbreak, ← hsplit]
  · rintro ⟨digits, hne, hdecimals, sign, ending, hsign, hending, rfl⟩
    have hunsigned : (Numeral.takeSign (sign ++ digits ++ ending)).2 = digits ++ ending := by
      cases digits with
      | nil => exact absurd rfl hne
      | cons d ds =>
        rw [List.append_assoc, List.cons_append,
          Numeral.takeSign_append hsign (hdecimals d List.mem_cons_self)]
    rw [hunsigned, withoutFinalBreak_append hdecimals hending]
    exact ⟨hne, hdecimals⟩

theorem isInteger_ofIntUnlimited (n : Int) :
    IsInteger (Numeral.ofIntUnlimited n) (Numeral.digits n.natAbs) := by
  refine ⟨Numeral.digits_ne_nil _, fun c => Numeral.isDecimal_of_mem_digits, _, [],
    Numeral.isSign_ofIntUnlimited n, .inl rfl, ?_⟩
  rw [List.append_nil, Numeral.ofIntUnlimited_eq]

theorem isIntegerText_ofIntUnlimited (n : Int) :
    isIntegerText (Numeral.ofIntUnlimited n) = true :=
  isIntegerText_iff.mpr ⟨_, isInteger_ofIntUnlimited n⟩

/-- A text with anything but digits after its sign is no integer. -/
theorem isIntegerText_of_mem {t : Text} {c : CodePoint} (hc : c ∈ (Numeral.takeSign t).2)
    (hdecimal : c.isDecimal = false) (hbreak : .scalar '\n' ∉ (Numeral.takeSign t).2) :
    isIntegerText t = false := by
  have hnot : (Numeral.takeSign t).2.all CodePoint.isDecimal = false := by
    rw [List.all_eq_false]
    exact ⟨c, hc, by rw [hdecimal]; decide⟩
  unfold isIntegerText
  dsimp only
  rw [withoutFinalBreak_eq_self hbreak, hnot, Bool.and_false]

/-! ## Numbers -/

theorem takeSign_signChars (negative : Bool) {d : Char} (hd : d.isDigit) (cs : List Char) :
    Numeral.takeSign (Text.ofChars (Binary64.signChars negative ++ d :: cs)) =
      (negative, Text.ofChars (d :: cs)) := by
  cases negative with
  | true => rfl
  | false => exact Numeral.takeSign_digit hd cs

/-- The text of a finite number is made of digits and marks. -/
theorem isNumeralChar_of_mem_text {x : Binary64} (hx : x.isFinite) {c : Char}
    (hc : .scalar c ∈ x.text) : Binary64.IsNumeralChar c := by
  cases x with
  | nan => cases hx
  | number negative rank =>
    obtain ⟨p, hp, hchars, _⟩ := Binary64.exists_parts negative (of_decide_eq_true hx)
    rw [Binary64.text, hchars] at hc
    obtain ⟨d, hd, heq⟩ := List.mem_map.mp hc
    rw [← CodePoint.scalar.inj heq]
    exact Binary64.isNumeralChar_of_mem hp hd

/-- The text of a finite number has a point or an exponent. -/
theorem isIntegerText_text {x : Binary64} (hx : x.isFinite) : isIntegerText x.text = false := by
  cases x with
  | nan => cases hx
  | number negative rank =>
    obtain ⟨p, hp, hchars, _⟩ := Binary64.exists_parts negative (of_decide_eq_true hx)
    obtain ⟨d, ds, hhead, _⟩ := hp.head
    have hd : d.isDigit := hp.whole d (hhead ▸ List.mem_cons_self)
    have hsplit : p.chars =
        d :: (ds ++ (Binary64.Parts.fractionChars p.fraction ++
          Binary64.Parts.exponentChars p.exponent)) := by
      unfold Binary64.Parts.chars
      rw [hhead, List.cons_append]
    have hsign : (Numeral.takeSign (Binary64.number negative rank).text).2 =
        Text.ofChars p.chars := by
      rw [Binary64.text, hchars, hsplit, takeSign_signChars negative hd]
    have hbreak : .scalar '\n' ∉ Text.ofChars p.chars := by
      intro hmem
      have hmem : .scalar '\n' ∈ (Binary64.number negative rank).text := by
        rw [Binary64.text, hchars, Text.ofChars, List.map_append]
        exact List.mem_append_right _ hmem
      rcases isNumeralChar_of_mem_text hx hmem with hdigit | hmark
      · cases hdigit
      · revert hmark
        decide
    have hmark : ∃ c ∈ p.chars, (CodePoint.scalar c).isDecimal = false := by
      unfold Binary64.Parts.chars
      cases hfraction : p.fraction with
      | cons d ds =>
        exact ⟨'.', by simp [Binary64.Parts.fractionChars], by decide⟩
      | nil =>
        cases hexponent : p.exponent with
        | none => exact absurd ⟨hfraction, hexponent⟩ hp.inexact
        | some n => exact ⟨'e', by simp [Binary64.Parts.exponentChars], by decide⟩
    obtain ⟨c, hc, hdecimal⟩ := hmark
    rw [← hsign] at hbreak
    refine isIntegerText_of_mem (c := .scalar c) ?_ hdecimal hbreak
    rw [hsign]
    exact List.mem_map.mpr ⟨c, hc, rfl⟩

/-- The two infinities are written by a name. -/
theorem text_infinite {negative : Bool} {rank : Fin 0x7FF0000000000001}
    (hrank : ¬rank.val < Binary64.topRank) :
    (Binary64.number negative rank).text =
      Text.ofChars (Binary64.signChars negative ++ ['i', 'n', 'f']) := by
  have hzero : ¬rank.val = 0 := fun h => hrank (h ▸ by decide)
  rw [Binary64.text, Binary64.chars_number, if_neg hzero, if_neg hrank]

theorem scalarValue_infinite {negative : Bool} {rank : Fin 0x7FF0000000000001}
    (hrank : ¬rank.val < Binary64.topRank) :
    scalarValue (some .number) (Binary64.number negative rank).text =
      .ok (.float (.number negative rank)) := by
  have htop : rank = ⟨Binary64.topRank, by decide⟩ := by
    have hbound : Binary64.topRank = 0x7FF0000000000000 := rfl
    exact Fin.ext (show rank.val = Binary64.topRank by omega)
  have hread : ∀ negative : Bool,
      isIntegerText (Text.ofChars (Binary64.signChars negative ++ ['i', 'n', 'f'])) = false ∧
        Binary64.ofText? (Text.ofChars (Binary64.signChars negative ++ ['i', 'n', 'f'])) =
          some (.number negative ⟨Binary64.topRank, by decide⟩) := by decide +kernel
  obtain ⟨hinteger, hnumber⟩ := hread negative
  unfold scalarValue
  rw [text_infinite hrank, hinteger, hnumber, htop]
  cases negative with
  | true => rfl
  | false => rfl

theorem scalarValue_finite {x : Binary64} (hx : x.isFinite) :
    scalarValue (some .number) x.text = .ok (.float x) := by
  have hne : x.text.isEmpty = false := by
    refine List.isEmpty_eq_false_iff.mpr fun hnil => ?_
    have hread := Binary64.ofText?_text hx
    have hempty : Binary64.ofText? [] = none := by decide
    rw [hnil, hempty] at hread
    cases hread
  unfold scalarValue
  dsimp only
  rw [hne, isIntegerText_text hx, Binary64.ofText?_text hx]
  rfl

theorem scalarValue_int {n : Int}
    (h : (Numeral.digits n.natAbs).length ≤ Numeral.digitLimit) :
    scalarValue (some .number) (Numeral.ofIntUnlimited n) = .ok (.int n) := by
  have hne : (Numeral.ofIntUnlimited n).isEmpty = false := by
    refine List.isEmpty_eq_false_iff.mpr fun hnil => ?_
    have hinteger := isIntegerText_ofIntUnlimited n
    rw [hnil] at hinteger
    cases hinteger
  unfold scalarValue
  dsimp only
  rw [hne, isIntegerText_ofIntUnlimited, Numeral.toInt_ofIntUnlimited h]
  rfl

theorem scalarValue_empty : scalarValue (some .number) [] = .ok .null := rfl

/-- **A number is read back**, an integral one as an integer. -/
theorem scalarValue_number {v : Value} (h : FieldKind.number.HasItem v) :
    ∃ t w, v.toText = .ok t ∧ scalarValue (some .number) t = .ok w ∧ w.equals v = true := by
  cases v with
  | int n =>
    exact ⟨_, _, Numeral.ofInt_of_length h, scalarValue_int h, (Value.IsItem.int n).equals_self⟩
  | float x =>
    have hself : (Value.float x).equals (.float x) = true := (Value.IsItem.float h).equals_self
    cases hint : x.toInt? with
    | some n =>
      have hlength : (Numeral.digits n.natAbs).length ≤ Numeral.digitLimit :=
        Numeral.length_digits_le (by decide) (Binary64.natAbs_toInt?_lt hint (by decide))
      refine ⟨_, _, ?_, scalarValue_int hlength, ?_⟩
      · unfold Value.toText
        rw [hint]
        exact Numeral.ofInt_of_length hlength
      · show (Binary64.orderInt? n x == some .eq) = true
        rw [Binary64.orderInt?_of_toInt? hint, compare_eq_iff_eq.mpr rfl]
        rfl
    | none =>
      have htext : (Value.float x).toText = .ok x.text := by
        unfold Value.toText
        rw [hint]
      cases x with
      | nan => cases h
      | number negative rank =>
        by_cases hrank : rank.val < Binary64.topRank
        · exact ⟨_, _, htext, scalarValue_finite (decide_eq_true hrank), hself⟩
        · exact ⟨_, _, htext, scalarValue_infinite hrank, hself⟩
  | _ => cases h

/-- The text of a number has no comma in it. -/
theorem comma_not_mem_toText {v : Value} (h : FieldKind.number.HasItem v) {t : Text}
    (ht : v.toText = .ok t) : .scalar ',' ∉ t := by
  have hint : ∀ {n : Int} {t : Text}, Numeral.ofInt n = .ok t → .scalar ',' ∉ t := by
    intro n t ht hmem
    obtain ⟨rfl, _⟩ := Json.ofInt_eq ht
    rcases List.mem_append.mp hmem with hsign | hdigit
    · revert hsign
      unfold Json.sign
      split
      · decide
      · exact nofun
    · have hcomma := Numeral.isDecimal_of_mem_digits hdigit
      revert hcomma
      decide
  cases v with
  | int n => exact hint ht
  | float x =>
    unfold Value.toText at ht
    cases hx : x.toInt? with
    | some n =>
      rw [hx] at ht
      exact hint ht
    | none =>
      rw [hx] at ht
      cases ht
      cases x with
      | nan => cases h
      | number negative rank =>
        by_cases hrank : rank.val < Binary64.topRank
        · have hfinite : (Binary64.number negative rank).isFinite := decide_eq_true hrank
          intro hmem
          rcases isNumeralChar_of_mem_text hfinite hmem with hdigit | hmark
          · cases hdigit
          · revert hmark
            decide
        · rw [text_infinite hrank]
          cases negative with
          | true => decide
          | false => decide
  | _ => cases h

/-! ## Single values -/

/-- The text of a date that is written, or of a truth value, is not taken for an absent value. -/
theorem scalarValue_text {kind : FieldKind} {t : Text} (h : kind.HasItem (.text t)) :
    scalarValue (some kind) t = .ok (.text t) := by
  cases kind with
  | date =>
    unfold scalarValue
    dsimp only
    rw [List.isEmpty_eq_false_iff.mpr h]
    rfl
  | number | boolean => cases h
  | text | select | array => rfl

theorem scalarValue_bool (b : Bool) :
    ∃ t, (Value.bool b).toText = .ok t ∧ scalarValue (some .boolean) t = .ok (.bool b) := by
  cases b with
  | true => exact ⟨_, rfl, rfl⟩
  | false => exact ⟨_, rfl, rfl⟩

/-- **A single value of a kind is read back** from its text, which is empty only for the empty
text. -/
theorem scalarValue_toText {kind : FieldKind} {v : Value} (h : kind.HasItem v) :
    ∃ t w, v.toText = .ok t ∧ scalarValue (some kind) t = .ok w ∧ w.equals v = true ∧
      (t = [] → v = .text []) := by
  have hnumber : ∀ {u : Value}, FieldKind.number.HasItem u → Value.null.equals u = false →
      ∃ t w, u.toText = .ok t ∧ scalarValue (some .number) t = .ok w ∧ w.equals u = true ∧
        (t = [] → u = .text []) := by
    intro u hu hnull
    obtain ⟨t, w, htext, hread, hequal⟩ := scalarValue_number hu
    refine ⟨t, w, htext, hread, hequal, fun hempty => ?_⟩
    rw [hempty, scalarValue_empty, Except.ok.injEq] at hread
    rw [← hread, hnull] at hequal
    cases hequal
  cases v with
  | text t =>
    exact ⟨t, _, rfl, scalarValue_text h, (Value.IsItem.text t).equals_self,
      fun hempty => congrArg Value.text hempty⟩
  | int n =>
    cases kind with
    | number => exact hnumber h rfl
    | _ => cases h
  | float x =>
    cases kind with
    | number => exact hnumber h rfl
    | _ => cases h
  | bool b =>
    cases kind with
    | boolean =>
      obtain ⟨t, htext, hread⟩ := scalarValue_bool b
      refine ⟨t, _, htext, hread, (Value.IsItem.bool b).equals_self, fun hempty => ?_⟩
      rw [hempty] at hread
      cases hread
    | _ => cases h
  | null | list _ | tuple _ | date _ | moment _ | object _ => cases kind <;> cases h

end Query

end Winnow

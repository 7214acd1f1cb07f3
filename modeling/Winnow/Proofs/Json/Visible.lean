import Winnow.Json.Printer
import Winnow.Proofs.Binary64.Text
import Winnow.Proofs.Json.Number
import Winnow.Proofs.Outcome
import Winnow.Proofs.Text.Encoding

/-!
# What JSON texts are made of

A text on one line escapes everything that is no visible ASCII character, so it holds visible
characters and blanks only, whatever is in the value.

* `Json.visible_string` : this holds of strings;
* `Json.visible_jsonAt` : it holds of the text of every value.
-/

namespace Winnow.Json

open Outcome
open Text (Visible visible_nil visible_ofChars visible_ofString)

/-! ## Strings -/

theorem visible_hexDigit : ∀ d < 16, 0x20 ≤ (hexDigit d).toNat ∧ (hexDigit d).toNat < 0x7F := by
  decide

theorem visible_hexDigits (width n : Nat) :
    ∀ c ∈ hexDigits width n, 0x20 ≤ c.toNat ∧ c.toNat < 0x7F := by
  induction width generalizing n with
  | zero => exact nofun
  | succ width ih =>
    intro c hc
    rw [hexDigits] at hc
    rcases List.mem_append.mp hc with hc | hc
    · exact ih _ c hc
    · rw [List.mem_singleton.mp hc]
      exact visible_hexDigit _ (Nat.mod_lt _ (by decide))

theorem visible_unitEscape (unit : Nat) : Visible (unitEscape unit) := by
  refine visible_ofChars fun c hc => ?_
  rcases List.mem_cons.mp hc with rfl | hc
  · decide
  · rcases List.mem_cons.mp hc with rfl | hc
    · decide
    · exact visible_hexDigits 4 unit c hc

theorem visible_escaped (c : CodePoint) : Visible (escaped true c) := by
  unfold escaped
  split
  iterate 7 exact visible_ofString rfl
  dsimp only
  split
  · unfold numericEscape
    split
    · exact visible_unitEscape _
    · exact (visible_unitEscape _).append (visible_unitEscape _)
  · rename_i hplain
    intro d hd
    rw [List.mem_singleton.mp hd]
    rw [not_or, not_and] at hplain
    exact ⟨Nat.le_of_not_lt hplain.1, Nat.lt_of_not_le (hplain.2 rfl)⟩

theorem visible_string (t : Text) : Visible (string true t) := by
  have hquote : Visible [.scalar '"'] := visible_nil.cons (by decide)
  refine (hquote.append fun d hd => ?_).append hquote
  obtain ⟨c, _, hd⟩ := List.mem_flatMap.mp hd
  exact visible_escaped c d hd

/-! ## Numbers -/

theorem visible_digit {c : Char} (hc : c.isDigit) : 0x20 ≤ c.toNat ∧ c.toNat < 0x7F := by
  obtain ⟨hlow, hhigh⟩ := isDigit_bounds hc
  omega

theorem visible_mark {c : Char} (hc : c ∈ ['.', 'e', '-', '+']) :
    0x20 ≤ c.toNat ∧ c.toNat < 0x7F := by
  simp only [List.mem_cons, List.not_mem_nil, or_false] at hc
  rcases hc with rfl | rfl | rfl | rfl
  · decide
  · decide
  · decide
  · decide

theorem visible_ofInt {n : Int} {t : Text} (ht : Numeral.ofInt n = .ok t) : Visible t := by
  have hdigits : Visible (Numeral.digits n.natAbs) :=
    visible_ofChars fun c hc =>
      visible_digit (Nat.isDigit_of_mem_toDigits (by decide) (by decide) hc)
  rw [(ofInt_eq ht).1]
  refine Visible.append ?_ hdigits
  cases decide (n < 0) with
  | true => exact visible_nil.cons (by decide)
  | false => exact visible_nil

theorem visible_number (x : Binary64) : Visible (number x) := by
  unfold number
  split
  · exact visible_ofString rfl
  · split
    · rename_i hfinite
      cases x with
      | nan => cases hfinite
      | number negative rank =>
        obtain ⟨p, hp, hchars, -⟩ := Binary64.exists_parts negative (of_decide_eq_true hfinite)
        unfold Binary64.text
        rw [hchars]
        refine visible_ofChars fun c hc => ?_
        rcases Binary64.isNumeralChar_of_mem hp hc with hdigit | hmark
        · exact visible_digit hdigit
        · exact visible_mark hmark
    · split
      · exact visible_ofString rfl
      · exact visible_ofString rfl

/-! ## Values -/

theorem visible_intercalate {level : Nat} {ts : List Text} (hts : ∀ t ∈ ts, Visible t) :
    Visible (List.intercalate (between .line level) ts) := by
  have hbetween : Visible (between .line level) := visible_ofString rfl
  induction ts with
  | nil => exact visible_nil
  | cons t ts ih =>
    have ht := hts t List.mem_cons_self
    have hrest := ih fun u hu => hts u (List.mem_cons_of_mem t hu)
    cases ts with
    | nil => rwa [List.intercalate_singleton]
    | cons u us =>
      rw [List.intercalate_cons_cons]
      exact (ht.append hbetween).append hrest

theorem visible_bracketed {level : Nat} {opening closing : Char}
    (hopening : 0x20 ≤ opening.toNat ∧ opening.toNat < 0x7F)
    (hclosing : 0x20 ≤ closing.toNat ∧ closing.toNat < 0x7F) {ts : List Text}
    (hts : ∀ t ∈ ts, Visible t) : Visible (bracketed .line level opening closing ts) := by
  have hend : Visible [.scalar closing] := visible_nil.cons hclosing
  have hline : ∀ level, Visible (newline .line level) := fun _ => visible_nil
  unfold bracketed
  split
  · exact hend.cons hopening
  · exact ((((visible_nil.cons hopening).append (hline _)).append (visible_intercalate hts)).append
      (hline _)).append hend

mutual

/-- **The text of a value on one line is visible**, whatever is in the value. -/
theorem visible_jsonAt {level : Nat} {t : Text} :
    ∀ v : Value, v.jsonAt .line level = .ok t → Visible t
  | .null, ht => by
    cases ht
    exact visible_ofString rfl
  | .bool b, ht => by
    cases ht
    cases b <;> exact visible_ofString rfl
  | .int _, ht => visible_ofInt ht
  | .float x, ht => by
    cases ht
    exact visible_number x
  | .text t, ht => by
    cases ht
    exact visible_string t
  | .list items, ht => by
    rw [Value.jsonAt] at ht
    obtain ⟨ts, hts, ht⟩ := of_bind_ok ht
    cases ht
    exact visible_bracketed (by decide) (by decide) (visible_jsonItems items hts)
  | .tuple items, ht => by
    rw [Value.jsonAt] at ht
    obtain ⟨ts, hts, ht⟩ := of_bind_ok ht
    cases ht
    exact visible_bracketed (by decide) (by decide) (visible_jsonItems items hts)
  | .object entries, ht => by
    rw [Value.jsonAt] at ht
    obtain ⟨ts, hts, ht⟩ := of_bind_ok ht
    cases ht
    exact visible_bracketed (by decide) (by decide) (visible_jsonEntries entries hts)
  | .date _, ht => by cases ht
  | .moment _, ht => by cases ht

theorem visible_jsonItems {level : Nat} {ts : List Text} :
    ∀ items : List Value, Value.jsonItems .line level items = .ok ts → ∀ t ∈ ts, Visible t
  | [], hts => by
    cases hts
    exact nofun
  | v :: vs, hts => by
    rw [Value.jsonItems] at hts
    obtain ⟨t, ht, hts⟩ := of_bind_ok hts
    obtain ⟨us, hus, hts⟩ := of_bind_ok hts
    cases hts
    intro u hu
    rcases List.mem_cons.mp hu with rfl | hu
    · exact visible_jsonAt v ht
    · exact visible_jsonItems vs hus u hu

theorem visible_jsonEntries {level : Nat} {ts : List Text} :
    ∀ entries : Value.Entries, Value.jsonEntries .line level entries = .ok ts →
      ∀ t ∈ ts, Visible t
  | [], hts => by
    cases hts
    exact nofun
  | (key, v) :: es, hts => by
    rw [Value.jsonEntries] at hts
    obtain ⟨t, ht, hts⟩ := of_bind_ok hts
    obtain ⟨us, hus, hts⟩ := of_bind_ok hts
    cases hts
    intro u hu
    rcases List.mem_cons.mp hu with rfl | hu
    · exact ((visible_string key).append (visible_ofString rfl)).append (visible_jsonAt v ht)
    · exact visible_jsonEntries es hus u hu

end

end Winnow.Json

import Winnow.Text.Blank

/-!
# Texts

* `CodePoint.ofNat?_toNat`, `CodePoint.ofNat?_of_scalar` : a code point and its number;
* `Text.trim_append`, `Text.trim_eq_self` : what is removed at the end of a text, and a text without
  anything to remove;
* `Text.Visible` : texts of visible ASCII characters and blanks.
-/

namespace Winnow

namespace CodePoint

/-- A visible ASCII character, or a blank. -/
def IsVisible (c : CodePoint) : Prop := 0x20 ≤ c.toNat ∧ c.toNat < 0x7F

theorem scalar_toNat (c : Char) :
    (scalar c).toNat < 0xD800 ∨ 0xDFFF < (scalar c).toNat ∧ (scalar c).toNat < 0x110000 :=
  c.valid

theorem surrogate_toNat (offset : Fin 0x800) : (surrogate offset).toNat = 0xD800 + offset.val := rfl

theorem ofNat?_toNat (c : CodePoint) : ofNat? c.toNat = some c := by
  unfold ofNat?
  cases c with
  | scalar c =>
    have hrange := scalar_toNat c
    rw [dif_neg (by omega), if_pos (by omega), toNat, Char.ofNat_toNat]
  | surrogate offset =>
    have hvalue := surrogate_toNat offset
    rw [dif_pos (by omega)]
    simp [hvalue]

/-- The number of a scalar value is that of a code point. -/
theorem ofNat?_of_scalar {n : Nat} (h : n < 0xD800 ∨ 0xDFFF < n ∧ n < 0x110000) :
    ∃ c : Char, ofNat? n = some (.scalar c) ∧ (scalar c).toNat = n := by
  refine ⟨Char.ofNat n, ?_, ?_⟩
  · unfold ofNat?
    rw [dif_neg (by omega), if_pos (by omega)]
  · show (Char.ofNat n).toNat = n
    unfold Char.ofNat
    rw [dif_pos h]
    rfl

end CodePoint

namespace Text

theorem chars_ofChars (cs : List Char) : chars (ofChars cs) = cs := by
  simp only [ofChars, chars, List.map_map]
  exact List.map_id cs

/-- What stands behind the last code point to keep is removed. -/
theorem trim_append {isOuter : CodePoint → Bool} {core ending : Text}
    (hcore : ∀ c ∈ core, isOuter c = false) (hne : core ≠ [])
    (hending : ∀ c ∈ ending, isOuter c = true) : (core ++ ending).trim isOuter = core := by
  have hfirst : ∀ {s rest : Text}, (∀ c ∈ s, isOuter c = false) → s ≠ [] →
      (s ++ rest).dropWhile isOuter = s ++ rest := by
    intro s rest hs hne
    cases s with
    | nil => exact absurd rfl hne
    | cons c cs =>
      rw [List.cons_append, List.dropWhile_cons_of_neg (by simp [hs c List.mem_cons_self])]
  have hlast := @hfirst core.reverse [] (fun c hc => hcore c (List.mem_reverse.mp hc))
    (List.reverse_ne_nil_iff.mpr hne)
  rw [List.append_nil] at hlast
  unfold trim
  rw [hfirst hcore hne, List.reverse_append,
    List.dropWhile_append_of_pos fun c hc => hending c (List.mem_reverse.mp hc), hlast,
    List.reverse_reverse]

theorem trim_eq_self {isOuter : CodePoint → Bool} {t : Text} (h : ∀ c ∈ t, isOuter c = false) :
    t.trim isOuter = t := by
  cases t with
  | nil => rfl
  | cons c cs =>
    have htrim := @trim_append isOuter (c :: cs) [] h (List.cons_ne_nil c cs) nofun
    rwa [List.append_nil] at htrim

/-! ## Visible texts -/

/-- A text of visible ASCII characters and blanks. -/
def Visible (t : Text) : Prop := ∀ c ∈ t, c.IsVisible

theorem visible_nil : Visible [] := nofun

theorem Visible.append {s t : Text} (hs : Visible s) (ht : Visible t) : Visible (s ++ t) := by
  intro c hc
  rcases List.mem_append.mp hc with hc | hc
  · exact hs c hc
  · exact ht c hc

theorem Visible.cons {c : Char} (hc : 0x20 ≤ c.toNat ∧ c.toNat < 0x7F) {t : Text}
    (ht : Visible t) : Visible (.scalar c :: t) := by
  intro d hd
  rcases List.mem_cons.mp hd with rfl | hd
  · exact hc
  · exact ht d hd

theorem visible_ofChars {cs : List Char} (hcs : ∀ c ∈ cs, 0x20 ≤ c.toNat ∧ c.toNat < 0x7F) :
    Visible (ofChars cs) := by
  intro c hc
  obtain ⟨d, hd, rfl⟩ := List.mem_map.mp hc
  exact hcs d hd

/-- The text of a string is visible if its characters are, one by one. -/
theorem visible_ofString {s : String}
    (hs : s.toList.all (fun c => 0x20 ≤ c.toNat && c.toNat < 0x7F) = true) :
    Visible (ofString s) := by
  refine visible_ofChars fun c hc => ?_
  have hvisible := List.all_eq_true.mp hs c hc
  rwa [Bool.and_eq_true, decide_eq_true_iff, decide_eq_true_iff] at hvisible

end Text

end Winnow

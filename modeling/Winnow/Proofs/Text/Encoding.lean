import Winnow.Proofs.Text.Utf8

/-!
# Decoding what was encoded

A text of visible ASCII characters and blanks takes one byte for each of them.  None of these bytes
is zero or belongs to a mark, so the bytes are taken for UTF-8 and decoded to the text.

* `Bytes.encoding_of_visible` : the bytes are taken for UTF-8;
* `Bytes.decode_utf8` : the bytes of such a text are decoded to the text.
-/

namespace Winnow

theorem Text.Visible.isScalar {t : Text} (ht : t.Visible) : t.isScalar = true := by
  refine List.all_eq_true.mpr fun c hc => ?_
  cases c with
  | scalar d => rfl
  | surrogate offset =>
    have hrange := (ht _ hc).2
    rw [CodePoint.surrogate_toNat] at hrange
    omega

namespace Bytes

theorem mem_utf8 {t : Text} (ht : t.Visible) {b : UInt8} (hb : b ∈ t.utf8) :
    0x20 ≤ b.toNat ∧ b.toNat < 0x7F := by
  obtain ⟨c, hc, hb⟩ := List.mem_flatMap.mp hb
  obtain ⟨hlow, hhigh⟩ := ht c hc
  rw [Text.utf8Bytes_one (by omega), List.mem_singleton] at hb
  rw [hb, toNat_ofNat (by omega)]
  exact ⟨hlow, hhigh⟩

/-- Bytes of visible characters bear no mark, and have no zeros that would tell a wider encoding. -/
theorem encoding_of_visible {bytes : Bytes} (h : ∀ b ∈ bytes, 0x20 ≤ b.toNat ∧ b.toNat < 0x7F) :
    encoding bytes = (.utf8, 0) := by
  have hne : ∀ b ∈ bytes, b ≠ 0 := by
    rintro b hb rfl
    exact absurd (h 0 hb).1 (by decide)
  have hmarks : marks.find? (fun m => m.1.isPrefixOf bytes) = none := by
    rw [List.find?_eq_none]
    intro m hm hprefix
    cases bytes with
    | nil =>
      revert m
      decide
    | cons b bs =>
      have hb := h b List.mem_cons_self
      simp only [marks, List.mem_cons, List.not_mem_nil, or_false] at hm
      rcases hm with rfl | rfl | rfl | rfl | rfl <;>
        simp only [List.isPrefixOf, Bool.and_eq_true, beq_iff_eq] at hprefix <;>
        rw [← hprefix.1] at hb <;> exact absurd hb (by decide)
  unfold encoding
  rw [hmarks]
  have hguess : guessEncoding bytes = .utf8 := by
    unfold guessEncoding
    split
    · rw [if_neg (hne _ (by simp)), if_neg (hne _ (by simp))]
    · rw [if_neg (hne _ (by simp)), if_neg (hne _ (by simp))]
    · rfl
  rw [hguess]

/-- **The bytes of a visible text are decoded to the text.** -/
theorem decode_utf8 {t : Text} (ht : t.Visible) : decode t.utf8 = .ok t := by
  have hencoding := encoding_of_visible fun b hb => mem_utf8 ht hb
  have hread : decodeUtf8 true t.utf8 = .ok t := decodeUtf8From_utf8 true 0 ht.isScalar
  unfold decode
  simp only [hencoding, List.drop_zero, hread]

end Bytes

end Winnow

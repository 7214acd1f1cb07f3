import Winnow.Proofs.Outcome
import Winnow.Proofs.Text.Basic
import Winnow.Text.Encoding

/-!
# UTF-8

Bytes are decoded code point by code point.  A code point is found at the beginning of bytes exactly
if they begin with its bytes and it is no surrogate.  So the bytes of a text without surrogates are
decoded to the text, and nothing else is decoded.  The name of a file keeps its bytes, also those
that are no UTF-8.

* `Bytes.utf8Scan_iff` : the code point at the beginning of bytes;
* `Bytes.ofUtf8_iff` : the text of UTF-8 bytes;
* `Text.nameBytes_onDisk` : the name of a file keeps its bytes on disk;
* `Text.onDisk_append_ne` : so a name with an ending is another name there.
-/

namespace Winnow

namespace Text

/-! ## The bytes of a code point -/

variable {c : CodePoint}

theorem utf8Bytes_one (h : c.toNat < 0x80) : utf8Bytes c = [UInt8.ofNat c.toNat] := if_pos h

theorem utf8Bytes_two (hlow : 0x80 ≤ c.toNat) (hhigh : c.toNat < 0x800) :
    utf8Bytes c = [UInt8.ofNat (0xC0 + c.toNat / 0x40), UInt8.ofNat (0x80 + c.toNat % 0x40)] := by
  unfold utf8Bytes
  dsimp only
  rw [if_neg (by omega), if_pos hhigh, Nat.div_one]

theorem utf8Bytes_three (hlow : 0x800 ≤ c.toNat) (hhigh : c.toNat < 0x10000) :
    utf8Bytes c = [UInt8.ofNat (0xE0 + c.toNat / 0x1000),
      UInt8.ofNat (0x80 + c.toNat / 0x40 % 0x40), UInt8.ofNat (0x80 + c.toNat % 0x40)] := by
  unfold utf8Bytes
  dsimp only
  rw [if_neg (by omega), if_neg (by omega), if_pos hhigh, Nat.div_one]

theorem utf8Bytes_four (hlow : 0x10000 ≤ c.toNat) :
    utf8Bytes c = [UInt8.ofNat (0xF0 + c.toNat / 0x40000),
      UInt8.ofNat (0x80 + c.toNat / 0x1000 % 0x40), UInt8.ofNat (0x80 + c.toNat / 0x40 % 0x40),
      UInt8.ofNat (0x80 + c.toNat % 0x40)] := by
  unfold utf8Bytes
  dsimp only
  rw [if_neg (by omega), if_neg (by omega), if_neg (by omega), Nat.div_one]

theorem codePointOr_toNat (c : CodePoint) : codePointOr c.toNat = c := by
  rw [codePointOr, CodePoint.ofNat?_toNat, Option.getD_some]

theorem codePointOr_of_scalar {n : Nat} (h : n < 0xD800 ∨ 0xDFFF < n ∧ n < 0x110000) :
    ∃ c : Char, codePointOr n = .scalar c ∧ (CodePoint.scalar c).toNat = n := by
  obtain ⟨c, hc, hn⟩ := CodePoint.ofNat?_of_scalar h
  exact ⟨c, by rw [codePointOr, hc, Option.getD_some], hn⟩

end Text

namespace Bytes

open Text (utf8Bytes codePointOr)

/-! ## The code point at the beginning of bytes -/

theorem eq_ofNat {b : UInt8} {n : Nat} (h : b.toNat = n) : b = UInt8.ofNat n := by
  rw [← h, UInt8.ofNat_toNat]

/-- How many bytes follow a first byte, and between which bounds the next one lies. -/
theorem utf8Shape?_iff {a owed low high : Nat} :
    utf8Shape? a = some (owed, low, high) ↔
      (0xC2 ≤ a ∧ a < 0xE0 ∧ owed = 1 ∧ low = 0x80 ∧ high = 0xBF) ∨
      (0xE0 ≤ a ∧ a < 0xF0 ∧ owed = 2 ∧ (low = if a = 0xE0 then 0xA0 else 0x80) ∧
        high = if a = 0xED then 0x9F else 0xBF) ∨
      (0xF0 ≤ a ∧ a < 0xF5 ∧ owed = 3 ∧ (low = if a = 0xF0 then 0x90 else 0x80) ∧
        high = if a = 0xF4 then 0x8F else 0xBF) := by
  unfold utf8Shape?
  grind

theorem utf8Tail_succ_iff {seen n low high owed : Nat} {bytes : Bytes} {r : CodePoint × Nat} :
    utf8Tail seen n low high (owed + 1) bytes = .ok r ↔
      ∃ b rest, bytes = b :: rest ∧ low ≤ b.toNat ∧ b.toNat ≤ high ∧
        utf8Tail (seen + 1) (n * 0x40 + (b.toNat - 0x80)) 0x80 0xBF owed rest = .ok r := by
  cases bytes with
  | nil => simp [utf8Tail]
  | cons b rest =>
    rw [utf8Tail]
    split
    · rename_i hbounds
      simp only [List.cons.injEq]
      constructor
      · exact fun h => ⟨b, rest, ⟨rfl, rfl⟩, hbounds.1, hbounds.2, h⟩
      · rintro ⟨_, _, ⟨rfl, rfl⟩, -, -, h⟩
        exact h
    · rename_i hbounds
      simp only [reduceCtorEq, List.cons.injEq, false_iff]
      rintro ⟨b, rest, ⟨rfl, rfl⟩, hlow, hhigh, -⟩
      exact hbounds ⟨hlow, hhigh⟩

/-- At least the bytes before are to blame for a failure. -/
theorem width_of_utf8Tail_error {seen n low high owed : Nat} {bytes : Bytes} {reason : Text}
    {width : Nat} (h : utf8Tail seen n low high owed bytes = .error (reason, width)) :
    seen ≤ width := by
  induction owed generalizing seen n low high bytes with
  | zero => cases h
  | succ owed ih =>
    cases bytes with
    | nil =>
      cases h
      exact Nat.le_refl _
    | cons b rest =>
      rw [utf8Tail] at h
      split at h
      · exact Nat.le_of_succ_le (ih h)
      · cases h
        exact Nat.le_refl _

/-- Two bytes are those of the scalar value that they give. -/
theorem utf8Bytes_of_two {a b : UInt8} (ha : 0xC2 ≤ a.toNat ∧ a.toNat < 0xE0)
    (hb : 0x80 ≤ b.toNat ∧ b.toNat ≤ 0xBF) :
    ∃ d, codePointOr (a.toNat % Nat.pow 2 5 * 0x40 + (b.toNat - 0x80)) = .scalar d ∧
      utf8Bytes (.scalar d) = [a, b] := by
  generalize hn : a.toNat % Nat.pow 2 5 * 0x40 + (b.toNat - 0x80) = n
  rw [show Nat.pow 2 5 = 32 from rfl] at hn
  obtain ⟨d, hd, hvalue⟩ := Text.codePointOr_of_scalar (n := n) (by omega)
  refine ⟨d, hd, ?_⟩
  rw [Text.utf8Bytes_two (by omega) (by omega), ← eq_ofNat (b := a) (by omega),
    ← eq_ofNat (b := b) (by omega)]

/-- Three bytes are those of the scalar value that they give. -/
theorem utf8Bytes_of_three {a b c : UInt8} (ha : 0xE0 ≤ a.toNat ∧ a.toNat < 0xF0)
    (hlow : (if a.toNat = 0xE0 then 0xA0 else 0x80) ≤ b.toNat)
    (hhigh : b.toNat ≤ if a.toNat = 0xED then 0x9F else 0xBF)
    (hc : 0x80 ≤ c.toNat ∧ c.toNat ≤ 0xBF) :
    ∃ d, codePointOr ((a.toNat % Nat.pow 2 4 * 0x40 + (b.toNat - 0x80)) * 0x40 + (c.toNat - 0x80)) =
        .scalar d ∧
      utf8Bytes (.scalar d) = [a, b, c] := by
  generalize hn :
    (a.toNat % Nat.pow 2 4 * 0x40 + (b.toNat - 0x80)) * 0x40 + (c.toNat - 0x80) = n
  rw [show Nat.pow 2 4 = 16 from rfl] at hn
  -- The bounds of the second byte keep shorter forms out, and surrogates.
  have hfirst : a.toNat = 0xE0 → 0xA0 ≤ b.toNat := fun h => by rwa [if_pos h] at hlow
  have hlast : a.toNat = 0xED → b.toNat ≤ 0x9F := fun h => by rwa [if_pos h] at hhigh
  have hb : 0x80 ≤ b.toNat ∧ b.toNat ≤ 0xBF := by split at hlow <;> split at hhigh <;> omega
  clear hlow hhigh
  obtain ⟨d, hd, hvalue⟩ := Text.codePointOr_of_scalar (n := n) (by omega)
  refine ⟨d, hd, ?_⟩
  rw [Text.utf8Bytes_three (by omega) (by omega), ← eq_ofNat (b := a) (by omega),
    ← eq_ofNat (b := b) (by omega), ← eq_ofNat (b := c) (by omega)]

/-- Four bytes are those of the scalar value that they give. -/
theorem utf8Bytes_of_four {a b c e : UInt8} (ha : 0xF0 ≤ a.toNat ∧ a.toNat < 0xF5)
    (hlow : (if a.toNat = 0xF0 then 0x90 else 0x80) ≤ b.toNat)
    (hhigh : b.toNat ≤ if a.toNat = 0xF4 then 0x8F else 0xBF)
    (hc : 0x80 ≤ c.toNat ∧ c.toNat ≤ 0xBF) (he : 0x80 ≤ e.toNat ∧ e.toNat ≤ 0xBF) :
    ∃ d, codePointOr (((a.toNat % Nat.pow 2 3 * 0x40 + (b.toNat - 0x80)) * 0x40 +
        (c.toNat - 0x80)) * 0x40 + (e.toNat - 0x80)) = .scalar d ∧
      utf8Bytes (.scalar d) = [a, b, c, e] := by
  generalize hn : ((a.toNat % Nat.pow 2 3 * 0x40 + (b.toNat - 0x80)) * 0x40 +
    (c.toNat - 0x80)) * 0x40 + (e.toNat - 0x80) = n
  rw [show Nat.pow 2 3 = 8 from rfl] at hn
  -- The bounds of the second byte keep shorter forms out, and numbers beyond the last code point.
  have hfirst : a.toNat = 0xF0 → 0x90 ≤ b.toNat := fun h => by rwa [if_pos h] at hlow
  have hlast : a.toNat = 0xF4 → b.toNat ≤ 0x8F := fun h => by rwa [if_pos h] at hhigh
  have hb : 0x80 ≤ b.toNat ∧ b.toNat ≤ 0xBF := by split at hlow <;> split at hhigh <;> omega
  clear hlow hhigh
  obtain ⟨d, hd, hvalue⟩ := Text.codePointOr_of_scalar (n := n) (by omega)
  refine ⟨d, hd, ?_⟩
  rw [Text.utf8Bytes_four (by omega), ← eq_ofNat (b := a) (by omega),
    ← eq_ofNat (b := b) (by omega), ← eq_ofNat (b := c) (by omega), ← eq_ofNat (b := e) (by omega)]

/-- At least one byte is to blame for a failure. -/
theorem width_of_utf8Scan_error {b : UInt8} {bytes : Bytes} {reason : Text} {width : Nat}
    (h : utf8Scan false (b :: bytes) = .error (reason, width)) : 1 ≤ width := by
  unfold utf8Scan at h
  simp only [Bool.false_eq_true, if_false] at h
  split at h
  · cases h
  · split at h
    · cases h
      exact Nat.le_refl _
    · exact width_of_utf8Tail_error h

/-- The code point that is found at the beginning of bytes is a scalar value, and they begin with
its bytes. -/
theorem of_utf8Scan {bytes : Bytes} {c : CodePoint} {width : Nat}
    (h : utf8Scan false bytes = .ok (c, width)) :
    ∃ d rest, c = .scalar d ∧ bytes = utf8Bytes c ++ rest ∧ width = (utf8Bytes c).length := by
  cases bytes with
  | nil => cases h
  | cons a bytes =>
    unfold utf8Scan at h
    simp only [Bool.false_eq_true, if_false] at h
    split at h
    · rename_i hsmall
      cases h
      obtain ⟨d, hd, hvalue⟩ := Text.codePointOr_of_scalar (n := a.toNat) (by omega)
      rw [hd, Text.utf8Bytes_one (by omega), hvalue, UInt8.ofNat_toNat]
      exact ⟨d, bytes, rfl, rfl, rfl⟩
    · split at h
      · cases h
      · rename_i owed low high hshape
        rcases utf8Shape?_iff.mp hshape with ⟨hlow, hhigh, rfl, rfl, rfl⟩ |
          ⟨hlow, hhigh, rfl, rfl, rfl⟩ | ⟨hlow, hhigh, rfl, rfl, rfl⟩
        · obtain ⟨b, rest, rfl, hb, hb', h⟩ := utf8Tail_succ_iff.mp h
          obtain ⟨d, hd, hbytes⟩ := utf8Bytes_of_two ⟨hlow, hhigh⟩ ⟨hb, hb'⟩
          rw [utf8Tail, Except.ok.injEq, Prod.mk.injEq] at h
          obtain ⟨rfl, rfl⟩ := h
          rw [hd, hbytes]
          exact ⟨d, rest, rfl, rfl, rfl⟩
        · obtain ⟨b, rest, rfl, hb, hb', h⟩ := utf8Tail_succ_iff.mp h
          obtain ⟨c, rest, rfl, hc, hc', h⟩ := utf8Tail_succ_iff.mp h
          obtain ⟨d, hd, hbytes⟩ := utf8Bytes_of_three ⟨hlow, hhigh⟩ hb hb' ⟨hc, hc'⟩
          rw [utf8Tail, Except.ok.injEq, Prod.mk.injEq] at h
          obtain ⟨rfl, rfl⟩ := h
          rw [hd, hbytes]
          exact ⟨d, rest, rfl, rfl, rfl⟩
        · obtain ⟨b, rest, rfl, hb, hb', h⟩ := utf8Tail_succ_iff.mp h
          obtain ⟨c, rest, rfl, hc, hc', h⟩ := utf8Tail_succ_iff.mp h
          obtain ⟨e, rest, rfl, he, he', h⟩ := utf8Tail_succ_iff.mp h
          obtain ⟨d, hd, hbytes⟩ := utf8Bytes_of_four ⟨hlow, hhigh⟩ hb hb' ⟨hc, hc'⟩ ⟨he, he'⟩
          rw [utf8Tail, Except.ok.injEq, Prod.mk.injEq] at h
          obtain ⟨rfl, rfl⟩ := h
          rw [hd, hbytes]
          exact ⟨d, rest, rfl, rfl, rfl⟩

/-- Bytes do not begin with a surrogate if the second byte after the one of a surrogate is small. -/
theorem utf8Surrogate?_eq_none {a b : UInt8} {rest : Bytes}
    (h : a.toNat = 0xED → b.toNat < 0xA0) : utf8Surrogate? (a :: b :: rest) = none := by
  unfold utf8Surrogate?
  split
  · rename_i heq
    cases heq
    rw [if_neg (by omega)]
  · rfl

theorem utf8Surrogate?_of_ne {a : UInt8} {rest : Bytes} (h : a.toNat ≠ 0xED) :
    utf8Surrogate? (a :: rest) = none := by
  cases rest with
  | nil => rfl
  | cons b rest => exact utf8Surrogate?_eq_none fun ha => absurd ha h

/-- Scanning a first byte that others follow. -/
theorem utf8Scan_of_shape {surrogates : Bool} {a : UInt8} {rest : Bytes} {owed low high : Nat}
    (hsurrogate : utf8Surrogate? (a :: rest) = none) (hlarge : 0x80 ≤ a.toNat)
    (hshape : utf8Shape? a.toNat = some (owed, low, high)) :
    utf8Scan surrogates (a :: rest) =
      utf8Tail 1 (a.toNat % Nat.pow 2 (6 - owed)) low high owed rest := by
  unfold utf8Scan
  rw [hsurrogate, ite_self]
  dsimp only
  rw [if_neg (by omega), hshape]

theorem toNat_ofNat {n : Nat} (h : n < 0x100) : (UInt8.ofNat n).toNat = n :=
  UInt8.toNat_ofNat_of_lt' h

variable {surrogates : Bool} {n : Nat} {rest : Bytes}

theorem utf8Scan_one (h : n < 0x80) :
    utf8Scan surrogates (UInt8.ofNat n :: rest) = .ok (codePointOr n, 1) := by
  have ha := toNat_ofNat (n := n) (by omega)
  unfold utf8Scan
  rw [utf8Surrogate?_of_ne (by omega), ite_self]
  dsimp only
  rw [ha, if_pos h]

theorem utf8Scan_two (hlow : 0x80 ≤ n) (hhigh : n < 0x800) :
    utf8Scan surrogates
        (UInt8.ofNat (0xC0 + n / 0x40) :: UInt8.ofNat (0x80 + n % 0x40) :: rest) =
      .ok (codePointOr n, 2) := by
  have ha := toNat_ofNat (n := 0xC0 + n / 0x40) (by omega)
  have hb := toNat_ofNat (n := 0x80 + n % 0x40) (by omega)
  rw [utf8Scan_of_shape (utf8Surrogate?_of_ne (by omega)) (by omega)
    (utf8Shape?_iff.mpr (.inl ⟨by omega, by omega, rfl, rfl, rfl⟩))]
  refine utf8Tail_succ_iff.mpr ⟨_, _, rfl, by omega, by omega, ?_⟩
  rw [utf8Tail, ha, hb, show Nat.pow 2 (6 - 1) = 32 from rfl]
  exact congrArg (fun m => Except.ok (codePointOr m, 2)) (by omega)

theorem utf8Scan_three (hlow : 0x800 ≤ n) (hhigh : n < 0x10000)
    (hscalar : n < 0xD800 ∨ 0xDFFF < n) :
    utf8Scan surrogates (UInt8.ofNat (0xE0 + n / 0x1000) ::
        UInt8.ofNat (0x80 + n / 0x40 % 0x40) :: UInt8.ofNat (0x80 + n % 0x40) :: rest) =
      .ok (codePointOr n, 3) := by
  have ha := toNat_ofNat (n := 0xE0 + n / 0x1000) (by omega)
  have hb := toNat_ofNat (n := 0x80 + n / 0x40 % 0x40) (by omega)
  have hc := toNat_ofNat (n := 0x80 + n % 0x40) (by omega)
  rw [utf8Scan_of_shape (utf8Surrogate?_eq_none fun _ => by omega) (by omega)
    (utf8Shape?_iff.mpr (.inr (.inl ⟨by omega, by omega, rfl, rfl, rfl⟩)))]
  refine utf8Tail_succ_iff.mpr ⟨_, _, rfl, by split <;> omega, by split <;> omega, ?_⟩
  refine utf8Tail_succ_iff.mpr ⟨_, _, rfl, by omega, by omega, ?_⟩
  rw [utf8Tail, ha, hb, hc, show Nat.pow 2 (6 - 2) = 16 from rfl]
  exact congrArg (fun m => Except.ok (codePointOr m, 3)) (by omega)

theorem utf8Scan_four (hlow : 0x10000 ≤ n) (hhigh : n < 0x110000) :
    utf8Scan surrogates (UInt8.ofNat (0xF0 + n / 0x40000) ::
        UInt8.ofNat (0x80 + n / 0x1000 % 0x40) :: UInt8.ofNat (0x80 + n / 0x40 % 0x40) ::
        UInt8.ofNat (0x80 + n % 0x40) :: rest) =
      .ok (codePointOr n, 4) := by
  have ha := toNat_ofNat (n := 0xF0 + n / 0x40000) (by omega)
  have hb := toNat_ofNat (n := 0x80 + n / 0x1000 % 0x40) (by omega)
  have hc := toNat_ofNat (n := 0x80 + n / 0x40 % 0x40) (by omega)
  have he := toNat_ofNat (n := 0x80 + n % 0x40) (by omega)
  rw [utf8Scan_of_shape (utf8Surrogate?_of_ne (by omega)) (by omega)
    (utf8Shape?_iff.mpr (.inr (.inr ⟨by omega, by omega, rfl, rfl, rfl⟩)))]
  refine utf8Tail_succ_iff.mpr ⟨_, _, rfl, by split <;> omega, by split <;> omega, ?_⟩
  refine utf8Tail_succ_iff.mpr ⟨_, _, rfl, by omega, by omega, ?_⟩
  refine utf8Tail_succ_iff.mpr ⟨_, _, rfl, by omega, by omega, ?_⟩
  rw [utf8Tail, ha, hb, hc, he, show Nat.pow 2 (6 - 3) = 8 from rfl]
  exact congrArg (fun m => Except.ok (codePointOr m, 4)) (by omega)

/-- A scalar value is found at the beginning of its bytes, whatever follows them. -/
theorem utf8Scan_utf8Bytes (surrogates : Bool) (d : Char) (rest : Bytes) :
    utf8Scan surrogates (utf8Bytes (.scalar d) ++ rest) =
      .ok (.scalar d, (utf8Bytes (.scalar d)).length) := by
  have hrange := CodePoint.scalar_toNat d
  have hback := Text.codePointOr_toNat (.scalar d)
  rcases Nat.lt_or_ge (CodePoint.scalar d).toNat 0x80 with hone | hone
  · rw [Text.utf8Bytes_one hone]
    exact (utf8Scan_one hone).trans (by rw [hback]; rfl)
  rcases Nat.lt_or_ge (CodePoint.scalar d).toNat 0x800 with htwo | htwo
  · rw [Text.utf8Bytes_two hone htwo]
    exact (utf8Scan_two hone htwo).trans (by rw [hback]; rfl)
  rcases Nat.lt_or_ge (CodePoint.scalar d).toNat 0x10000 with hthree | hthree
  · rw [Text.utf8Bytes_three htwo hthree]
    exact (utf8Scan_three htwo hthree (by omega)).trans (by rw [hback]; rfl)
  · rw [Text.utf8Bytes_four hthree]
    exact (utf8Scan_four hthree (by omega)).trans (by rw [hback]; rfl)

/-- **The code point at the beginning of bytes** is the scalar value with whose bytes they begin. -/
theorem utf8Scan_iff {bytes : Bytes} {c : CodePoint} {width : Nat} :
    utf8Scan false bytes = .ok (c, width) ↔
      ∃ d rest, c = .scalar d ∧ bytes = utf8Bytes c ++ rest ∧ width = (utf8Bytes c).length := by
  refine ⟨of_utf8Scan, ?_⟩
  rintro ⟨d, rest, rfl, rfl, rfl⟩
  exact utf8Scan_utf8Bytes false d rest

/-! ## Whole texts -/

theorem utf8Bytes_ne_nil (c : CodePoint) : utf8Bytes c ≠ [] := by
  unfold utf8Bytes
  dsimp only
  split
  · exact List.cons_ne_nil _ _
  split
  · exact List.cons_ne_nil _ _
  split <;> exact List.cons_ne_nil _ _

/-- Bytes that belong to the code point before are left out. -/
theorem decodeUtf8From_skip (surrogates : Bool) (place skip : Nat) (bytes : Bytes) :
    decodeUtf8From surrogates place skip bytes =
      decodeUtf8From surrogates (place + skip) 0 (bytes.drop skip) := by
  induction bytes generalizing place skip with
  | nil => rw [List.drop_nil, decodeUtf8From, decodeUtf8From]
  | cons b bytes ih =>
    cases skip with
    | zero => rfl
    | succ skip =>
      rw [decodeUtf8From, ih, List.drop_succ_cons, Nat.add_right_comm, Nat.add_assoc]

/-- The text of bytes that begin with those of a scalar value. -/
theorem decodeUtf8From_cons (surrogates : Bool) (place : Nat) (d : Char) (rest : Bytes) :
    decodeUtf8From surrogates place 0 (utf8Bytes (.scalar d) ++ rest) =
      (decodeUtf8From surrogates (place + (utf8Bytes (.scalar d)).length) 0 rest).map
        (.scalar d :: ·) := by
  have hscan := utf8Scan_utf8Bytes surrogates d rest
  cases hbytes : utf8Bytes (.scalar d) with
  | nil => exact absurd hbytes (utf8Bytes_ne_nil _)
  | cons b bytes =>
    rw [hbytes] at hscan
    rw [List.cons_append] at hscan ⊢
    rw [decodeUtf8From]
    simp only [hscan]
    rw [decodeUtf8From_skip, List.length_cons, Nat.add_sub_cancel, List.drop_left, Nat.add_assoc,
      Nat.add_comm 1]
    cases decodeUtf8From surrogates (place + (bytes.length + 1)) 0 rest <;> rfl

/-- The bytes of a text without surrogates are decoded to the text. -/
theorem decodeUtf8From_utf8 (surrogates : Bool) (place : Nat) {t : Text} (ht : t.isScalar = true) :
    decodeUtf8From surrogates place 0 t.utf8 = .ok t := by
  induction t generalizing place with
  | nil => rfl
  | cons c t ih =>
    obtain ⟨hc, ht⟩ : _ ∧ Text.isScalar t = true := by simpa [Text.isScalar] using ht
    cases c with
    | surrogate offset => cases hc
    | scalar d =>
      show decodeUtf8From surrogates place 0 (utf8Bytes (.scalar d) ++ Text.utf8 t) = _
      rw [decodeUtf8From_cons, ih _ ht]
      rfl

/-- Bytes that are decoded are those of the text, and it has no surrogates. -/
theorem of_decodeUtf8From {place : Nat} {bytes : Bytes} {t : Text}
    (h : decodeUtf8From false place 0 bytes = .ok t) : t.isScalar = true ∧ t.utf8 = bytes := by
  induction t generalizing place bytes with
  | nil =>
    cases bytes with
    | nil => exact ⟨rfl, rfl⟩
    | cons b bytes =>
      rw [decodeUtf8From] at h
      split at h
      · cases h
      · obtain ⟨_, _, h⟩ := Outcome.of_bind_ok h
        cases h
  | cons c t ih =>
    cases bytes with
    | nil => cases h
    | cons b bytes =>
      have hscan : ∃ width, utf8Scan false (b :: bytes) = .ok (c, width) := by
        rw [decodeUtf8From] at h
        split at h
        · cases h
        · rename_i width hscan
          obtain ⟨_, _, h⟩ := Outcome.of_bind_ok h
          cases h
          exact ⟨width, hscan⟩
      obtain ⟨width, hscan⟩ := hscan
      obtain ⟨d, rest, rfl, hbytes, rfl⟩ := utf8Scan_iff.mp hscan
      rw [hbytes, decodeUtf8From_cons] at h
      cases htail : decodeUtf8From false (place + (utf8Bytes (.scalar d)).length) 0 rest with
      | error m =>
        rw [htail] at h
        cases h
      | ok tail =>
        rw [htail] at h
        cases h
        obtain ⟨hscalar, htext⟩ := ih htail
        exact ⟨hscalar, by rw [hbytes, ← htext]; rfl⟩

/-- **The text of UTF-8 bytes** is the one without surrogates whose bytes they are. -/
theorem ofUtf8_iff {bytes : Bytes} {t : Text} :
    ofUtf8 bytes = .ok t ↔ t.isScalar = true ∧ t.utf8 = bytes := by
  constructor
  · intro h
    unfold ofUtf8 at h
    split at h
    · rename_i hdecode
      cases h
      exact of_decodeUtf8From hdecode
    · cases h
  · rintro ⟨hscalar, rfl⟩
    have hdecode : decodeUtf8 false t.utf8 = .ok t := decodeUtf8From_utf8 false 0 hscalar
    rw [ofUtf8, hdecode]

end Bytes

/-! ## The names of files -/

namespace Text

/-- Bytes that are no UTF-8, as the code points that stand for them. -/
def escapedBytes (bytes : Bytes) : Text := bytes.map fun b => codePointOr (0xDC00 + b.toNat)

theorem nameBytes_append (s t : Text) : nameBytes (s ++ t) = nameBytes s ++ nameBytes t :=
  List.flatMap_append

theorem nameBytes_escapedBytes (bytes : Bytes) : nameBytes (escapedBytes bytes) = bytes := by
  induction bytes with
  | nil => rfl
  | cons b bytes ih =>
    have hb := b.toNat_lt
    have hpoint : codePointOr (0xDC00 + b.toNat) =
        .surrogate ⟨0xDC00 + b.toNat - 0xD800, by omega⟩ := by
      unfold codePointOr CodePoint.ofNat?
      rw [dif_pos (by omega), Option.getD_some]
    show nameBytes ([codePointOr (0xDC00 + b.toNat)] ++ escapedBytes bytes) = b :: bytes
    rw [nameBytes_append, ih, hpoint]
    show [UInt8.ofNat (0xDC00 + b.toNat - 0xD800 - 0x400)] ++ bytes = _
    rw [← Bytes.eq_ofNat (b := b) (by omega), List.singleton_append]

/-- The bytes of a name that was decoded leniently are those that it was decoded from. -/
theorem nameBytes_decodeLeniently (skip : Nat) (bytes : Bytes) :
    nameBytes (Bytes.decodeLeniently escapedBytes skip bytes) = bytes.drop skip := by
  induction bytes generalizing skip with
  | nil => rw [Bytes.decodeLeniently, List.drop_nil]; rfl
  | cons b bytes ih =>
    cases skip with
    | succ skip => rw [Bytes.decodeLeniently, ih, List.drop_succ_cons]
    | zero =>
      rw [Bytes.decodeLeniently, List.drop_zero]
      split
      · rename_i reason width hscan
        have hwidth : 1 ≤ width := Bytes.width_of_utf8Scan_error hscan
        obtain ⟨width, rfl⟩ := Nat.exists_eq_add_of_le' hwidth
        rw [nameBytes_append, nameBytes_escapedBytes, ih, Nat.add_sub_cancel, List.take_succ_cons,
          List.cons_append, List.take_append_drop]
      · rename_i c width hscan
        obtain ⟨d, rest, rfl, hbytes, rfl⟩ := Bytes.utf8Scan_iff.mp hscan
        show utf8Bytes (.scalar d) ++ nameBytes _ = _
        rw [ih, hbytes]
        cases hpoint : utf8Bytes (.scalar d) with
        | nil => exact absurd hpoint (Bytes.utf8Bytes_ne_nil _)
        | cons a tail =>
          rw [hpoint, List.cons_append] at hbytes
          obtain ⟨rfl, rfl⟩ := List.cons.inj hbytes
          rw [List.length_cons, Nat.add_sub_cancel, List.drop_left, List.cons_append]

/-- **The name of a file keeps its bytes on disk.** -/
theorem nameBytes_onDisk (name : Text) : nameBytes name.onDisk = nameBytes name := by
  unfold onDisk
  split
  · rfl
  · exact nameBytes_decodeLeniently 0 (nameBytes name)

/-- A name with an ending is another name on disk. -/
theorem onDisk_append_ne (name : Text) {ending : Text} (hending : nameBytes ending ≠ []) :
    onDisk (name ++ ending) ≠ onDisk name := by
  intro h
  have hbytes := congrArg nameBytes h
  rw [nameBytes_onDisk, nameBytes_onDisk, nameBytes_append] at hbytes
  exact hending (List.append_right_eq_self.mp hbytes)

/-- The name of a file with bytes of ASCII has no surrogates. -/
theorem isScalar_of_nameBytes {name : Text} (hname : name.isFileName = true)
    (hbytes : ∀ b ∈ nameBytes name, b.toNat < 0x80) : name.isScalar = true := by
  refine List.all_eq_true.mpr fun c hc => ?_
  cases c with
  | scalar d => rfl
  | surrogate offset =>
    -- A surrogate in the name of a file stands for a byte beyond ASCII.
    have hrange := List.all_eq_true.mp hname _ hc
    simp only [Bool.and_eq_true, decide_eq_true_eq] at hrange
    have hbyte := hbytes (UInt8.ofNat (offset.val - 0x400))
      (List.mem_flatMap.mpr ⟨_, hc, List.mem_singleton_self _⟩)
    rw [Bytes.toNat_ofNat (by omega)] at hbyte
    omega

/-- Only the name of ASCII bytes itself has them on disk. -/
theorem eq_of_onDisk {name t : Text} (hname : name.isFileName = true) (h : name.onDisk = t)
    (ht : ∀ b ∈ nameBytes t, b.toNat < 0x80) : name = t := by
  have hscalar : name.isScalar = true := by
    refine isScalar_of_nameBytes hname ?_
    rw [← nameBytes_onDisk, h]
    exact ht
  rw [← h, onDisk, if_pos hscalar]

end Text

end Winnow

import Winnow.Json.Printer
import Winnow.Json.Token
import Winnow.Proofs.Text.Basic

/-!
# Reading back JSON strings

A string shows every code point by itself, by an escape of one letter, or by one or two numeric
escapes, the last of these also for what is outside ASCII if the string is to be in ASCII.  Each of
these is read back as the code point, so a text without surrogates is read back from its string.

* `Json.hexUnit?_hexDigits` : four hexadecimal digits are read back;
* `Json.scanString_escaped` : what shows a code point is read back, whatever follows;
* `Json.scanString_string` : so is the whole of a string.
-/

namespace Winnow.Json

/-- A code point that is no surrogate. -/
def IsScalar : CodePoint → Prop
  | .scalar _ => True
  | .surrogate _ => False

theorem isScalar_ofString (s : String) : ∀ c ∈ Text.ofString s, IsScalar c := by
  intro c hc
  obtain ⟨d, _, rfl⟩ := List.mem_map.mp hc
  trivial

theorem toNat_range {c : CodePoint} (hc : IsScalar c) :
    c.toNat < 0xD800 ∨ 0xDFFF < c.toNat ∧ c.toNat < 0x110000 := by
  cases c with
  | scalar c => exact CodePoint.scalar_toNat c
  | surrogate offset => cases hc

theorem toNat_not_leadUnit {c : CodePoint} (hc : IsScalar c) : isLeadUnit c.toNat = false := by
  have hrange := toNat_range hc
  rw [isLeadUnit, Bool.and_eq_false_iff, decide_eq_false_iff_not, decide_eq_false_iff_not]
  omega

theorem codePoint_toNat (c : CodePoint) : codePoint c.toNat = c := by
  rw [codePoint, CodePoint.ofNat?_toNat, Option.getD_some]

/-! ## Hexadecimal digits -/

theorem hexValue?_hexDigit : ∀ d < 16, (CodePoint.scalar (hexDigit d)).hexValue? = some d := by
  decide

theorem hexUnit?_hexDigits {n : Nat} (hn : n < 0x10000) (rest : Text) :
    hexUnit? (Text.ofChars (hexDigits 4 n) ++ rest) = some n := by
  have hdigit : ∀ k, (CodePoint.scalar (hexDigit (k % 16))).hexValue? = some (k % 16) :=
    fun k => hexValue?_hexDigit (k % 16) (Nat.mod_lt k (by decide))
  simp only [hexDigits, Text.ofChars, List.nil_append, List.cons_append, List.map_cons, List.map_nil,
    hexUnit?, hdigit, Option.bind_eq_bind, Option.bind_some, Option.pure_def, Option.some.injEq]
  omega

theorem length_hexDigits (width n : Nat) : (hexDigits width n).length = width := by
  induction width generalizing n with
  | zero => rfl
  | succ width ih => rw [hexDigits, List.length_append, ih, List.length_singleton]

theorem length_unit (n : Nat) : (Text.ofChars (hexDigits 4 n)).length = 4 := by
  rw [Text.ofChars, List.length_map, length_hexDigits]

/-! ## Escapes -/

theorem scanString_skip (place : Nat) (t before rest : Text) :
    scanString place before.length t (before ++ rest) =
      scanString (place + before.length) 0 t rest := by
  induction before generalizing place with
  | nil => rfl
  | cons c before ih =>
    rw [List.length_cons, List.cons_append, scanString, ih]
    congr 1
    omega

/-- A numeric escape that is not the first of a pair. -/
theorem numericEscape?_single {n : Nat} (hn : n < 0x10000) (hlead : isLeadUnit n = false)
    {rest : Text} (hrest : rest ≠ []) :
    numericEscape? (Text.ofChars (hexDigits 4 n) ++ rest) = .ok (codePoint n, 4) := by
  have hdrop : (Text.ofChars (hexDigits 4 n) ++ rest).drop 4 = rest :=
    List.drop_left' (length_unit n)
  unfold numericEscape?
  simp only [hdrop, List.isEmpty_iff, hrest, if_false, hexUnit?_hexDigits hn, hlead,
    Bool.false_eq_true, false_and]
  split <;> rfl

/-- Two numeric escapes that make a pair. -/
theorem numericEscape?_pair {lead trail : Nat} (hlead : isLeadUnit lead = true)
    (htrail : isTrailUnit trail = true) {rest : Text} (hrest : rest ≠ []) :
    numericEscape? (Text.ofChars (hexDigits 4 lead) ++ (unitEscape trail ++ rest)) =
      .ok (codePoint (0x10000 + (lead - 0xD800) * 0x400 + (trail - 0xDC00)), 10) := by
  have hleadLimit : lead < 0x10000 := by
    simp only [isLeadUnit, Bool.and_eq_true, decide_eq_true_iff] at hlead
    omega
  have htrailLimit : trail < 0x10000 := by
    simp only [isTrailUnit, Bool.and_eq_true, decide_eq_true_iff] at htrail
    omega
  have hdrop : (Text.ofChars (hexDigits 4 lead) ++ (unitEscape trail ++ rest)).drop 4 =
      .scalar '\\' :: .scalar 'u' :: (Text.ofChars (hexDigits 4 trail) ++ rest) :=
    List.drop_left' (length_unit lead)
  have hsecond : (Text.ofChars (hexDigits 4 trail) ++ rest).drop 4 = rest :=
    List.drop_left' (length_unit trail)
  unfold numericEscape?
  simp only [hdrop, List.isEmpty_iff, reduceCtorEq, if_false, hexUnit?_hexDigits hleadLimit,
    hexUnit?_hexDigits htrailLimit, hlead, htrail, hsecond, hrest, not_false_eq_true, and_self,
    if_true]

/-- Scanning goes on after a numeric escape. -/
theorem scanString_numeric (place : Nat) (t : Text) {body rest : Text} {c : CodePoint}
    (h : numericEscape? (body ++ rest) = .ok (c, body.length)) :
    scanString place 0 t (.scalar '\\' :: .scalar 'u' :: (body ++ rest)) =
      scanString (place + (body.length + 2)) 0 (c :: t) rest := by
  have hskip := scanString_skip (place + 1) (c :: t) (.scalar 'u' :: body) rest
  rw [List.length_cons, List.cons_append] at hskip
  rw [scanString, if_neg (by decide), if_pos rfl]
  simp only [h]
  rw [hskip]
  congr 1
  omega

/-- Scanning goes on after an escape of one letter. -/
theorem scanString_letter (place : Nat) (t rest : Text) {letter : Char} {c : CodePoint}
    (hletter : letter ≠ 'u') (h : letterEscape? (.scalar letter) = some c) :
    scanString place 0 t (.scalar '\\' :: .scalar letter :: rest) =
      scanString (place + 2) 0 (c :: t) rest := by
  have hskip := scanString_skip (place + 1) (c :: t) [.scalar letter] rest
  rw [List.length_singleton, List.singleton_append] at hskip
  rw [scanString, if_neg (by decide), if_pos rfl]
  · simp only [h]
    exact hskip
  · exact fun heq => hletter (CodePoint.scalar.inj heq)

/-- Scanning goes on after a code point that shows itself. -/
theorem scanString_plain (place : Nat) (t rest : Text) {c : CodePoint} (hquote : c ≠ .scalar '"')
    (hbackslash : c ≠ .scalar '\\') (hcontrol : ¬ c.toNat < 0x20) :
    scanString place 0 t (c :: rest) = scanString (place + 1) 0 (c :: t) rest := by
  rw [scanString.eq_def]
  dsimp only
  rw [if_neg hquote, if_neg hbackslash, if_neg hcontrol]

/-- A numeric escape of a code point, by one code unit or by two. -/
theorem scanString_numericEscape (place : Nat) (t : Text) {c : CodePoint} (hc : IsScalar c)
    {rest : Text} (hrest : rest ≠ []) :
    scanString place 0 t (numericEscape c.toNat ++ rest) =
      scanString (place + (numericEscape c.toNat).length) 0 (c :: t) rest := by
  unfold numericEscape
  split
  · rename_i hbasic
    have hlead : isLeadUnit c.toNat = false := toNat_not_leadUnit hc
    have hread := numericEscape?_single hbasic hlead hrest
    rw [codePoint_toNat] at hread
    have hlength : (Text.ofChars (hexDigits 4 c.toNat)).length = 4 := length_unit c.toNat
    rw [← hlength] at hread
    exact scanString_numeric place t hread
  · rename_i hbeyond
    have hrange := toNat_range hc
    generalize hn : c.toNat = n at hbeyond hrange
    have hlead : isLeadUnit (0xD800 + (n - 0x10000) / 0x400) = true := by
      simp only [isLeadUnit, Bool.and_eq_true, decide_eq_true_iff]
      omega
    have htrail : isTrailUnit (0xDC00 + (n - 0x10000) % 0x400) = true := by
      simp only [isTrailUnit, Bool.and_eq_true, decide_eq_true_iff]
      omega
    have hvalue : 0x10000 + (0xD800 + (n - 0x10000) / 0x400 - 0xD800) * 0x400 +
        (0xDC00 + (n - 0x10000) % 0x400 - 0xDC00) = c.toNat := by omega
    have hread := numericEscape?_pair hlead htrail hrest
    rw [hvalue, codePoint_toNat, ← List.append_assoc] at hread
    have hlength : (Text.ofChars (hexDigits 4 (0xD800 + (n - 0x10000) / 0x400)) ++
        unitEscape (0xDC00 + (n - 0x10000) % 0x400)).length = 10 := rfl
    rw [← hlength] at hread
    exact scanString_numeric place t hread

/-- **What shows a code point is read back as the code point**, whatever follows it. -/
theorem scanString_escaped (ascii : Bool) (place : Nat) (t : Text) {c : CodePoint} (hc : IsScalar c) {rest : Text}
    (hrest : rest ≠ []) :
    scanString place 0 t (escaped ascii c ++ rest) =
      scanString (place + (escaped ascii c).length) 0 (c :: t) rest := by
  unfold escaped
  split
  · exact scanString_letter place t rest (by decide) rfl
  · exact scanString_letter place t rest (by decide) rfl
  · exact scanString_letter place t rest (by decide) rfl
  · exact scanString_letter place t rest (by decide) rfl
  · exact scanString_letter place t rest (by decide) rfl
  · exact scanString_letter place t rest (by decide) rfl
  · exact scanString_letter place t rest (by decide) rfl
  · rename_i hquote hbackslash _ _ _ _ _
    dsimp only
    split
    · exact scanString_numericEscape place t hc hrest
    · rename_i hplain
      exact scanString_plain place t rest hquote hbackslash fun h => hplain (.inl h)

/-- The body of a string is read back up to and with its closing quote. -/
theorem scanString_body (ascii : Bool) (place : Nat) (before : Text) {t : Text} (ht : ∀ c ∈ t, IsScalar c)
    (rest : Text) :
    scanString place 0 before (t.flatMap (escaped ascii) ++ .scalar '"' :: rest) =
      .ok (before.reverse ++ t, place + (t.flatMap (escaped ascii)).length + 1) := by
  induction t generalizing place before with
  | nil =>
    rw [List.flatMap_nil, List.nil_append, List.append_nil]
    unfold scanString
    rfl
  | cons c t ih =>
    have hne : t.flatMap (escaped ascii) ++ .scalar '"' :: rest ≠ [] := by simp
    rw [List.flatMap_cons, List.append_assoc,
      scanString_escaped ascii place before (ht c List.mem_cons_self) hne,
      ih _ _ (fun d hd => ht d (List.mem_cons_of_mem c hd)), List.reverse_cons, List.append_assoc,
      List.length_append]
    congr 2
    omega

/-- **A text without surrogates is read back from its string.** -/
theorem scanString_string (ascii : Bool) {t : Text} (ht : ∀ c ∈ t, IsScalar c) (rest : Text) :
    scanString 1 0 [] (t.flatMap (escaped ascii) ++ .scalar '"' :: rest) =
      .ok (t, (string ascii t).length) := by
  rw [scanString_body ascii 1 [] ht rest, List.reverse_nil, List.nil_append, string]
  simp only [List.length_append, List.length_singleton]

end Winnow.Json

import Winnow.Proofs.Filter.Entry
import Winnow.Proofs.Json.Fitting
import Winnow.Proofs.Json.Visible

/-!
# Printing JSON texts

A page shows every character outside ASCII as it is, so it can be encoded exactly if the value has no
surrogates standing alone.

* `Json.Fits.exists_page` : a value as the reader gives it has a page, which has surrogates exactly
  if the value does;
* `Json.Fits.read_page` : without surrogates it is read back from its page.
-/

namespace Winnow

open Outcome

namespace Text

theorem isScalar_iff {t : Text} : t.isScalar = true ↔ ∀ c ∈ t, Json.IsScalar c := by
  rw [isScalar, List.all_eq_true]
  refine forall₂_congr fun c _ => ?_
  cases c with
  | scalar c => exact iff_of_true rfl trivial
  | surrogate offset => exact iff_of_false Bool.false_ne_true id

theorem isScalar_append (t u : Text) : (t ++ u).isScalar = (t.isScalar && u.isScalar) :=
  List.all_append

theorem isScalar_ofChars (cs : List Char) : (ofChars cs).isScalar = true :=
  List.all_eq_true.mpr fun c hc => by
    obtain ⟨d, _, rfl⟩ := List.mem_map.mp hc
    rfl

end Text

namespace Json

open Text (isScalar_append isScalar_ofChars)

/-! ## Strings -/

theorem isScalar_unitEscape (unit : Nat) : (unitEscape unit).isScalar = true := isScalar_ofChars _

/-- What shows a code point has a surrogate only if that is the code point. -/
theorem isScalar_escaped (c : CodePoint) : (escaped false c).isScalar = Text.isScalar [c] := by
  unfold escaped
  split
  iterate 7 rfl
  dsimp only
  split
  · rename_i hsmall
    have hcontrol : c.toNat < 0x20 := hsmall.resolve_right (by simp)
    cases c with
    | surrogate offset =>
      rw [CodePoint.surrogate_toNat] at hcontrol
      omega
    | scalar c =>
      rw [numericEscape, if_pos (by omega)]
      exact isScalar_unitEscape _
  · rfl

theorem isScalar_string (t : Text) : (string false t).isScalar = t.isScalar := by
  have hbody : Text.isScalar (t.flatMap (escaped false)) = t.isScalar := by
    induction t with
    | nil => rfl
    | cons c t ih =>
      rw [List.flatMap_cons, isScalar_append, ih, isScalar_escaped, ← isScalar_append]
      rfl
  rw [string, isScalar_append, isScalar_append, hbody]
  exact (Bool.and_true _).trans (Bool.true_and _)

/-! ## Items between brackets -/

theorem isScalar_newline (layout : Layout) (level : Nat) :
    (newline layout level).isScalar = true := by
  unfold newline
  split
  · rfl
  · rename_i width _
    have hblanks : ∀ n, Text.isScalar (List.replicate n (.scalar ' ')) = true := fun n => by
      rw [← List.map_replicate]
      exact isScalar_ofChars _
    exact hblanks _

theorem isScalar_intercalate {separator : Text} (hseparator : separator.isScalar = true)
    (ts : List Text) : Text.isScalar (List.intercalate separator ts) = ts.all Text.isScalar := by
  induction ts with
  | nil => rfl
  | cons t ts ih =>
    cases ts with
    | nil => rw [List.intercalate_singleton, List.all_cons, List.all_nil, Bool.and_true]
    | cons u us =>
      rw [List.intercalate_cons_cons, isScalar_append, isScalar_append, hseparator, ih,
        Bool.and_true]
      rfl

/-- Items between brackets have no surrogates besides those of the items. -/
theorem isScalar_bracketed (level : Nat) (opening closing : Char) (ts : List Text) :
    (bracketed .page level opening closing ts).isScalar = ts.all Text.isScalar := by
  unfold bracketed
  split
  · rename_i hempty
    rw [List.isEmpty_iff.mp hempty]
    rfl
  · have hbetween : (between .page (level + 1)).isScalar = true := isScalar_newline .page (level + 1)
    have hmark : ∀ c : Char, Text.isScalar [.scalar c] = true := fun _ => rfl
    simp only [isScalar_append, isScalar_newline, isScalar_intercalate hbetween, hmark,
      Bool.true_and, Bool.and_true]

/-! ## Values -/

/-- A text shows a value: it has surrogates exactly if the value does. -/
def Shows (v : Value) (t : Text) : Prop := t.isScalar = true ↔ v.Storable

theorem exists_pageItems {level : Nat} {items : List Value}
    (hitems : ∀ v ∈ items, ∃ t, v.jsonAt .page level = .ok t ∧ Shows v t) :
    ∃ ts, Value.jsonItems .page level items = .ok ts ∧
      (ts.all Text.isScalar = true ↔ ∀ v ∈ items, v.Storable) := by
  induction items with
  | nil => exact ⟨[], rfl, iff_of_true rfl (List.forall_mem_nil _)⟩
  | cons v vs ih =>
    obtain ⟨⟨t, ht, hshows⟩, hvs⟩ := List.forall_mem_cons.mp hitems
    obtain ⟨ts, hts, hall⟩ := ih hvs
    refine ⟨t :: ts, ?_, ?_⟩
    · rw [Value.jsonItems, ht, hts]
      rfl
    · rw [List.all_cons, Bool.and_eq_true, hall, List.forall_mem_cons]
      exact and_congr_left' hshows

theorem exists_pageEntries {level : Nat} {entries : Value.Entries}
    (hentries : ∀ e ∈ entries, ∃ t, e.2.jsonAt .page level = .ok t ∧ Shows e.2 t) :
    ∃ ts, Value.jsonEntries .page level entries = .ok ts ∧
      (ts.all Text.isScalar = true ↔
        (∀ e ∈ entries, ∀ c ∈ e.1, IsScalar c) ∧ ∀ e ∈ entries, e.2.Storable) := by
  induction entries with
  | nil => exact ⟨[], rfl, iff_of_true rfl ⟨List.forall_mem_nil _, List.forall_mem_nil _⟩⟩
  | cons e es ih =>
    obtain ⟨⟨t, ht, hshows⟩, hes⟩ := List.forall_mem_cons.mp hentries
    obtain ⟨ts, hts, hall⟩ := ih hes
    refine ⟨(string false e.1 ++ (": " : Text) ++ t) :: ts, ?_, ?_⟩
    · rw [Value.jsonEntries, ht, hts]
      rfl
    · have hcolon : (": " : Text).isScalar = true := rfl
      rw [List.all_cons, isScalar_append, isScalar_append, isScalar_string, hcolon, Bool.and_true,
        Bool.and_eq_true, Bool.and_eq_true, hall, List.forall_mem_cons, List.forall_mem_cons,
        Text.isScalar_iff]
      exact and_and_and_comm.trans (and_congr_right' (and_congr_left' hshows))

theorem storable_list_iff {items : List Value} :
    (Value.list items).Storable ↔ ∀ v ∈ items, v.Storable :=
  ⟨fun h => by cases h with | list h => exact h, .list⟩

theorem storable_object_iff {entries : Value.Entries} :
    (Value.object entries).Storable ↔
      (∀ e ∈ entries, ∀ c ∈ e.1, IsScalar c) ∧ ∀ e ∈ entries, e.2.Storable :=
  ⟨fun h => by cases h with | object hkeys hvalues => exact ⟨hkeys, hvalues⟩,
    fun h => .object h.1 h.2⟩

theorem storable_text_iff {t : Text} : (Value.text t).Storable ↔ t.isScalar = true := by
  rw [Text.isScalar_iff]
  exact ⟨fun h => by cases h with | text ht => exact ht, .text⟩

/-- **A value as the reader gives it has a page**, which shows it. -/
theorem Fits.exists_page {depth : Nat} {v : Value} (h : Fits depth v) (level : Nat) :
    ∃ t, v.jsonAt .page level = .ok t ∧ Shows v t := by
  induction h generalizing level with
  | null => exact ⟨_, rfl, iff_of_true rfl .null⟩
  | bool b => exact ⟨_, rfl, iff_of_true (by cases b <;> rfl) (.bool b)⟩
  | @int _ n hn =>
    have htext := Numeral.ofInt_of_length hn
    exact ⟨_, htext, iff_of_true (visible_ofInt htext).isScalar (.int hn)⟩
  | float x => exact ⟨_, rfl, iff_of_true (visible_number x).isScalar (.float x)⟩
  | text t =>
    refine ⟨_, rfl, ?_⟩
    rw [Shows, storable_text_iff]
    exact Bool.eq_iff_iff.mp (isScalar_string t)
  | list _ ih =>
    obtain ⟨ts, hts, hall⟩ := exists_pageItems fun v hv => ih v hv (level + 1)
    refine ⟨bracketed .page level '[' ']' ts, ?_, ?_⟩
    · rw [Value.jsonAt, hts]
      rfl
    · rw [Shows, isScalar_bracketed, hall, storable_list_iff]
  | object _ _ ih =>
    obtain ⟨ts, hts, hall⟩ := exists_pageEntries fun e he => ih e he (level + 1)
    refine ⟨bracketed .page level '\x7b' '\x7d' ts, ?_, ?_⟩
    · rw [Value.jsonAt, hts]
      rfl
    · rw [Shows, isScalar_bracketed, hall, storable_object_iff]

/-- Without surrogates it is kept by every text. -/
theorem Fits.writable {depth : Nat} {v : Value} (h : Fits depth v) (hstorable : v.Storable) :
    Writable depth v := by
  induction h with
  | null => exact .null
  | bool b => exact .bool b
  | int hn => exact .int hn
  | float x => exact .float x
  | text t => exact .text (Text.isScalar_iff.mp (storable_text_iff.mp hstorable))
  | list _ ih => exact .list fun v hv => ih v hv (storable_list_iff.mp hstorable v hv)
  | object hdistinct _ ih =>
    obtain ⟨hkeys, hvalues⟩ := storable_object_iff.mp hstorable
    exact .object hkeys hdistinct fun e he => ih e he (hvalues e he)

/-- A text that is read does not begin with a byte order mark. -/
theorem read_of_readUnmarked {t : Text} {v : Value} (h : readUnmarked t = .ok v) :
    read t = .ok v := by
  rw [read, if_neg fun hmark => ?_]
  · exact h
  · cases t with
    | nil => cases hmark
    | cons c cs =>
      cases hmark
      have hscan : scanToken (byteOrderMark :: cs) = (.unknown, 0) := rfl
      have htokens : tokens (byteOrderMark :: cs) = [⟨0, .unknown⟩] := by
        rw [tokens, tokensFrom, if_neg (by decide)]
        simp only [hscan]
      rw [readUnmarked, htokens] at h
      cases h

/-- **The page of a value without surrogates is read back**, blanks after it included. -/
theorem Fits.read_page {depth : Nat} {v : Value} (h : Fits depth v) (hdepth : depth ≤ nestingLimit)
    (hstorable : v.Storable) {t : Text} (ht : v.json .page = .ok t) {b : Text}
    (hb : ∀ c ∈ b, isBlank c = true) : read (t ++ b) = .ok v :=
  read_of_readUnmarked (readUnmarked_json hdepth (h.writable hstorable) ht hb)

end Json

end Winnow

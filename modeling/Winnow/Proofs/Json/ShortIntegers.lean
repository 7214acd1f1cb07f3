import Winnow.Proofs.Json.Fitting
import Winnow.Store.Codec

/-!
# Integers that are read are short

The reader of JSON texts refuses an integer with more digits than are converted.  So every integer
in a value that it does read, at whatever depth, has a text.

* `Value.HasShortIntegers` : no integer in a value has too many digits;
* `Value.literal_ok_iff` : exactly then the value is written in literal notation;
* `Value.IsJson` : the values that JSON texts hold, which are without such integers;
* `Json.Fits.isJson` : what the reader gives is one of them;
* `FilterSet.storedItems_isJson`, `FilterSet.storedItems_hasShortIntegers` : and so are the items of
  a stored blob.
-/

namespace Winnow

/-- Every integer in a value, at whatever depth, has a text. -/
inductive Value.HasShortIntegers : Value → Prop
  | null : HasShortIntegers .null
  | bool (b : Bool) : HasShortIntegers (.bool b)
  | int {n : Int} (h : (Numeral.digits n.natAbs).length ≤ Numeral.digitLimit) :
    HasShortIntegers (.int n)
  | float (x : Binary64) : HasShortIntegers (.float x)
  | text (t : Text) : HasShortIntegers (.text t)
  | list {items : List Value} (h : ∀ v ∈ items, HasShortIntegers v) : HasShortIntegers (.list items)
  | tuple {items : List Value} (h : ∀ v ∈ items, HasShortIntegers v) :
    HasShortIntegers (.tuple items)
  | date (d : Date) : HasShortIntegers (.date d)
  | moment (m : Moment) : HasShortIntegers (.moment m)
  | object {entries : Value.Entries} (h : ∀ e ∈ entries, HasShortIntegers e.2) :
    HasShortIntegers (.object entries)

open Value

theorem Value.HasShortIntegers.normalize {v : Value} (h : v.HasShortIntegers) :
    v.normalize.HasShortIntegers := by
  cases h with
  | tuple h => exact .list h
  | _ => constructor <;> assumption

theorem Value.itemLiterals_ok {items : List Value} (h : ∀ v ∈ items, ∃ t, v.literal = .ok t) :
    ∃ ts, itemLiterals items = .ok ts := by
  induction items with
  | nil => exact ⟨[], rfl⟩
  | cons v vs ih =>
    obtain ⟨t, ht⟩ := h v List.mem_cons_self
    obtain ⟨ts, hts⟩ := ih fun w hw => h w (List.mem_cons_of_mem v hw)
    exact ⟨t :: ts, by rw [itemLiterals, ht, hts]; rfl⟩

theorem Value.entryLiterals_ok {entries : Entries} (h : ∀ e ∈ entries, ∃ t, e.2.literal = .ok t) :
    ∃ ts, entryLiterals entries = .ok ts := by
  induction entries with
  | nil => exact ⟨[], rfl⟩
  | cons e es ih =>
    obtain ⟨t, ht⟩ := h e List.mem_cons_self
    obtain ⟨ts, hts⟩ := ih fun f hf => h f (List.mem_cons_of_mem e hf)
    exact ⟨_, by rw [entryLiterals, ht, hts]; rfl⟩

/-- A value as a JSON text holds it, with no integer that is too long to be read. -/
inductive Value.IsJson : Value → Prop
  | null : IsJson .null
  | bool (b : Bool) : IsJson (.bool b)
  | int {n : Int} (h : (Numeral.digits n.natAbs).length ≤ Numeral.digitLimit) : IsJson (.int n)
  | float (x : Binary64) : IsJson (.float x)
  | text (t : Text) : IsJson (.text t)
  | list {items : List Value} (h : ∀ v ∈ items, IsJson v) : IsJson (.list items)
  | object {entries : Value.Entries} (h : ∀ e ∈ entries, IsJson e.2) : IsJson (.object entries)

theorem Value.IsJson.hasShortIntegers {v : Value} (h : v.IsJson) : v.HasShortIntegers := by
  induction h with
  | null => exact .null
  | bool b => exact .bool b
  | int hn => exact .int hn
  | float x => exact .float x
  | text t => exact .text t
  | list _ ih => exact .list ih
  | object _ ih => exact .object ih

theorem Json.Fits.isJson {depth : Nat} {v : Value} (h : Fits depth v) : v.IsJson := by
  induction h with
  | null => exact .null
  | bool b => exact .bool b
  | int hn => exact .int hn
  | float x => exact .float x
  | text t => exact .text t
  | list _ ih => exact .list ih
  | object _ _ ih => exact .object ih

/-- A value whose integers have texts is written in literal notation. -/
theorem Value.HasShortIntegers.literal_ok {v : Value} (h : v.HasShortIntegers) :
    ∃ t, v.literal = .ok t := by
  induction h with
  | int hn => exact ⟨_, by rw [literal, Numeral.ofInt_of_length hn]⟩
  | list _ ih =>
    obtain ⟨ts, hts⟩ := itemLiterals_ok ih
    exact ⟨_, by rw [literal, hts]; rfl⟩
  | tuple _ ih =>
    obtain ⟨ts, hts⟩ := itemLiterals_ok ih
    rw [literal, hts]
    rcases ts with _ | ⟨t, _ | ⟨u, ts⟩⟩ <;> exact ⟨_, rfl⟩
  | object _ ih =>
    obtain ⟨ts, hts⟩ := entryLiterals_ok ih
    exact ⟨_, by rw [literal, hts]; rfl⟩
  | _ => exact ⟨_, rfl⟩

namespace Value

mutual

/-- A value that is written in literal notation has integers with texts. -/
theorem hasShortIntegers_of_literal : ∀ {v : Value} {t : Text}, v.literal = .ok t →
    v.HasShortIntegers
  | .null, _, _ => .null
  | .bool b, _, _ => .bool b
  | .float x, _, _ => .float x
  | .text t, _, _ => .text t
  | .date d, _, _ => .date d
  | .moment m, _, _ => .moment m
  | .int n, _, h => by
    rw [literal] at h
    exact .int (Numeral.length_of_ofInt h)
  | .list items, _, h => by
    rw [literal] at h
    obtain ⟨ts, hts, -⟩ := Outcome.of_bind_ok h
    exact .list (hasShortIntegers_of_itemLiterals hts)
  | .tuple items, _, h => by
    rw [literal] at h
    obtain ⟨ts, hts, -⟩ := Outcome.of_bind_ok h
    exact .tuple (hasShortIntegers_of_itemLiterals hts)
  | .object entries, _, h => by
    rw [literal] at h
    obtain ⟨ts, hts, -⟩ := Outcome.of_bind_ok h
    exact .object (hasShortIntegers_of_entryLiterals hts)

theorem hasShortIntegers_of_itemLiterals : ∀ {items : List Value} {ts : List Text},
    itemLiterals items = .ok ts → ∀ v ∈ items, v.HasShortIntegers
  | [], _, _ => List.forall_mem_nil _
  | v :: vs, _, h => by
    rw [itemLiterals] at h
    obtain ⟨t, ht, h⟩ := Outcome.of_bind_ok h
    obtain ⟨ts, hts, -⟩ := Outcome.of_bind_ok h
    exact List.forall_mem_cons.mpr
      ⟨hasShortIntegers_of_literal ht, hasShortIntegers_of_itemLiterals hts⟩

theorem hasShortIntegers_of_entryLiterals : ∀ {entries : Entries} {ts : List Text},
    entryLiterals entries = .ok ts → ∀ e ∈ entries, e.2.HasShortIntegers
  | [], _, _ => List.forall_mem_nil _
  | (key, v) :: es, _, h => by
    rw [entryLiterals] at h
    obtain ⟨t, ht, h⟩ := Outcome.of_bind_ok h
    obtain ⟨ts, hts, -⟩ := Outcome.of_bind_ok h
    exact List.forall_mem_cons.mpr
      ⟨hasShortIntegers_of_literal ht, hasShortIntegers_of_entryLiterals hts⟩

end

/-- **Exactly the values whose integers have texts are written in literal notation.** -/
theorem literal_ok_iff {v : Value} : (∃ t, v.literal = .ok t) ↔ v.HasShortIntegers :=
  ⟨fun ⟨_, h⟩ => hasShortIntegers_of_literal h, HasShortIntegers.literal_ok⟩

end Value

/-! ## Blobs -/

theorem Blob.json_fits {blob : Blob} {t : Text} {v : Value} (h : blob.json = .ok (t, .ok v)) :
    Json.Fits Json.nestingLimit v := by
  cases blob with
  | bytes b =>
    obtain ⟨u, -, h⟩ := Outcome.of_bind_ok h
    simp only [pure, Except.pure, Except.ok.injEq, Prod.mk.injEq] at h
    exact Json.readUnmarked_fits h.2
  | text u =>
    simp only [json, Except.ok.injEq, Prod.mk.injEq] at h
    exact Json.read_fits h.2

namespace FilterSet

theorem storedValue_fits {blob : Blob} {v : Value} (h : storedValue blob = .ok v) :
    Json.Fits Json.nestingLimit v := by
  unfold storedValue at h
  split at h
  · cases h
  · cases h
  · rename_i t u hjson
    cases h
    exact Blob.json_fits hjson
  · cases h
  · cases h

/-- **The items of a stored blob are values of JSON.** -/
theorem storedItems_isJson {blob : Blob} {items : List Value}
    (h : storedItems blob = .ok items) : ∀ v ∈ items, v.IsJson := by
  unfold storedItems at h
  obtain ⟨v, hv, h⟩ := Outcome.of_bind_ok h
  have hjson := (storedValue_fits hv).isJson
  split at h
  · cases h
    cases hjson with
    | list hitems => exact hitems
  · cases h

/-- So none of them has an integer with too many digits. -/
theorem storedItems_hasShortIntegers {blob : Blob} {items : List Value}
    (h : storedItems blob = .ok items) : ∀ v ∈ items, v.HasShortIntegers :=
  fun v hv => (storedItems_isJson h v hv).hasShortIntegers

end FilterSet

end Winnow

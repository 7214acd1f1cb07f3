import Winnow.CommandLine
import Winnow.Proofs.Outcome
import Winnow.Proofs.Store.Contract

/-!
# Records in a file

The content of a file is a list of records, or it is said what is wrong with it, or reading it fails.

* `Bytes.HoldRecords` : bytes are the text of a list of records;
* `Bytes.Misfit` : what is said to be wrong with bytes that are none;
* `Bytes.BreakRecords` : the bytes of which nothing is said;
* `CommandLine.recordsIn_ok_iff`, `CommandLine.recordsIn_refusal_iff`,
  `CommandLine.recordsIn_failure_iff` : these are the three ways in which records are read.
-/

namespace Winnow

open Outcome

namespace Bytes

/-- The bytes are the text of a list of records. -/
def HoldRecords (bytes : Bytes) (records : List Record) : Prop :=
  ∃ t, ofTextFile bytes = .ok t ∧ Json.read t = .ok (.list (records.map .object))

/-- What is wrong with bytes that are no list of records, as it is said: their text is not JSON, or
it is something else. -/
inductive Misfit (bytes : Bytes) : Text → Prop
  | grammar {t reason : Text} {place : Nat} (ht : ofTextFile bytes = .ok t)
    (hread : Json.read t = .error (.grammar reason place)) :
    Misfit bytes ("Records file is not valid JSON: " ++ (reason ++ ": " ++ Json.placeText t place))
  | shape {t : Text} {v : Value} (ht : ofTextFile bytes = .ok t) (hread : Json.read t = .ok v)
    (hv : ∀ records : List Record, v ≠ .list (records.map .object)) :
    Misfit bytes "Records file must contain a JSON list of objects"

/-- The bytes that are neither: those that are not UTF-8, and those of a text with an integer that is
too long to be read, or with too many arrays and objects in each other. -/
def BreakRecords (bytes : Bytes) : Prop :=
  ¬ bytes.IsUtf8 ∨ ∃ t, ofTextFile bytes = .ok t ∧
    ((∃ digits, Json.read t = .error (.longInteger digits)) ∨
      ∃ what, Json.read t = .error (.tooDeep what))

theorem isUtf8_iff {bytes : Bytes} : bytes.IsUtf8 ↔ ∃ t, ofTextFile bytes = .ok t := by
  have hread : bytes.IsUtf8 ↔ ∃ t, ofUtf8 bytes = .ok t := exists_congr fun _ => ofUtf8_iff.symm
  rw [hread, ofTextFile]
  cases ofUtf8 bytes with
  | error fault => exact ⟨nofun, nofun⟩
  | ok t => exact ⟨fun _ => ⟨_, rfl⟩, fun _ => ⟨t, rfl⟩⟩

end Bytes

namespace CommandLine

/-! ## Steps -/

theorem ofStep_ok {α : Type} (a : α) : Ending.ofStep (.ok a) = .ok a := rfl

theorem ofStep_ok_iff {α : Type} {x : Except Fault α} {a : α} :
    Ending.ofStep x = .ok a ↔ x = .ok a := by
  cases x with
  | error fault => exact ⟨nofun, nofun⟩
  | ok b =>
    show Except.ok b = Except.ok a ↔ _
    rw [Except.ok.injEq, Except.ok.injEq]

theorem ofStep_error_iff {α : Type} {x : Except Fault α} {ending : Ending} :
    Ending.ofStep x = .error ending ↔ ∃ fault, x = .error fault ∧ ending = .failure fault := by
  cases x with
  | error fault =>
    refine ⟨fun h => ⟨fault, rfl, (Except.error.inj h).symm⟩, ?_⟩
    rintro ⟨_, ⟨⟩, rfl⟩
    rfl
  | ok b => exact ⟨nofun, nofun⟩

/-! ## Values that are lists of records -/

variable {bytes : Bytes} {t : Text} {records : List Record} {v : Value}

theorem record?_eq_some_iff {r : Record} : record? v = some r ↔ v = .object r := by
  cases v with
  | object entries => rw [record?, Option.some.injEq, Value.object.injEq]
  | _ => exact ⟨nofun, nofun⟩

theorem records?_eq_some_iff : records? v = some records ↔ v = .list (records.map .object) := by
  cases v with
  | list items =>
    rw [records?, Value.list.injEq]
    induction items generalizing records with
    | nil => cases records <;> simp
    | cons item items ih =>
      rw [List.mapM_cons]
      constructor
      · intro h
        obtain ⟨r, hr, h⟩ := Option.bind_eq_some_iff.mp h
        obtain ⟨rest, hrest, h⟩ := Option.bind_eq_some_iff.mp h
        cases h
        rw [List.map_cons, ← record?_eq_some_iff.mp hr, ← ih.mp hrest]
      · intro h
        cases records with
        | nil => cases h
        | cons r records =>
          rw [List.map_cons, List.cons.injEq] at h
          rw [record?_eq_some_iff.mpr h.1, ih.mpr h.2]
          rfl
  | _ => exact ⟨nofun, nofun⟩

/-! ## Reading records -/

/-- The records in the content of a file. -/
def recordsIn (bytes : Bytes) : Except Ending (List Record) := do
  recordsOf (← Ending.ofStep (Bytes.ofTextFile bytes))

theorem recordsIn_of_text (ht : Bytes.ofTextFile bytes = .ok t) :
    recordsIn bytes = recordsOf t := by
  rw [recordsIn, ht]
  rfl

/-- **The records of bytes that hold some are read**, and no others. -/
theorem recordsIn_ok_iff : recordsIn bytes = .ok records ↔ bytes.HoldRecords records := by
  constructor
  · intro h
    obtain ⟨t, ht, h⟩ := of_bind_ok h
    refine ⟨t, ofStep_ok_iff.mp ht, ?_⟩
    unfold recordsOf at h
    split at h
    · rename_i v hread
      split at h
      · rename_i found hfound
        cases h
        rw [hread, records?_eq_some_iff.mp hfound]
      · cases h
    all_goals cases h
  · rintro ⟨t, ht, hread⟩
    rw [recordsIn_of_text ht, recordsOf, hread]
    dsimp only
    rw [records?_eq_some_iff.mpr rfl]

/-- **Bytes are refused for what is wrong with them.** -/
theorem recordsIn_refusal_iff {reason : Text} :
    recordsIn bytes = .error (.refusal reason) ↔ bytes.Misfit reason := by
  constructor
  · intro h
    rcases of_bind_error h with htext | ⟨t, ht, h⟩
    · obtain ⟨_, -, hending⟩ := ofStep_error_iff.mp htext
      cases hending
    · have ht' := ofStep_ok_iff.mp ht
      unfold recordsOf at h
      split at h
      · rename_i v hread
        split at h
        · cases h
        · rename_i hnone
          cases h
          refine .shape ht' hread fun records hv => ?_
          rw [records?_eq_some_iff.mpr hv] at hnone
          cases hnone
      · cases h
      · cases h
      · rename_i refusal hlong hdeep hread
        cases h
        cases refusal with
        | grammar reason place => exact .grammar ht' hread
        | longInteger digits => exact absurd rfl (hlong digits)
        | tooDeep what => exact absurd rfl (hdeep what)
  · intro h
    cases h with
    | grammar ht hread =>
      rw [recordsIn_of_text ht, recordsOf, hread]
      rfl
    | @shape t v ht hread hv =>
      have hnone : records? v = none := by
        refine Option.eq_none_iff_forall_ne_some.mpr fun records hsome => ?_
        exact hv records (records?_eq_some_iff.mp hsome)
      rw [recordsIn_of_text ht, recordsOf, hread]
      dsimp only
      rw [hnone]

/-- **Reading fails, rather than being refused**, where the bytes are not UTF-8 or their text goes
beyond what is read. -/
theorem recordsIn_failure_iff :
    (∃ fault, recordsIn bytes = .error (.failure fault)) ↔ bytes.BreakRecords := by
  constructor
  · rintro ⟨fault, h⟩
    rcases of_bind_error h with htext | ⟨t, ht, h⟩
    · refine .inl fun hutf8 => ?_
      obtain ⟨t, ht⟩ := Bytes.isUtf8_iff.mp hutf8
      rw [ht] at htext
      cases htext
    · refine .inr ⟨t, ofStep_ok_iff.mp ht, ?_⟩
      unfold recordsOf at h
      split at h
      · split at h <;> cases h
      · rename_i digits hread
        exact .inl ⟨digits, hread⟩
      · rename_i what hread
        exact .inr ⟨what, hread⟩
      · cases h
  · rintro (hutf8 | ⟨t, ht, ⟨digits, hread⟩ | ⟨what, hread⟩⟩)
    · cases htext : Bytes.ofTextFile bytes with
      | ok t => exact absurd (Bytes.isUtf8_iff.mpr ⟨t, htext⟩) hutf8
      | error fault => exact ⟨fault, by rw [recordsIn, htext]; rfl⟩
    · exact ⟨_, by rw [recordsIn_of_text ht, recordsOf, hread]⟩
    · exact ⟨_, by rw [recordsIn_of_text ht, recordsOf, hread]⟩

theorem not_breakRecords (h : ∀ fault, recordsIn bytes ≠ .error (.failure fault)) :
    ¬ bytes.BreakRecords := by
  intro hbreaks
  obtain ⟨fault, hfault⟩ := recordsIn_failure_iff.mpr hbreaks
  exact h fault hfault

/-- There is no other way in which records are not read. -/
theorem recordsIn_error {ending : Ending} (h : recordsIn bytes = .error ending) :
    (∃ reason, ending = .refusal reason) ∨ ∃ fault, ending = .failure fault := by
  rcases of_bind_error h with htext | ⟨t, -, h⟩
  · obtain ⟨fault, -, rfl⟩ := ofStep_error_iff.mp htext
    exact .inr ⟨fault, rfl⟩
  · unfold recordsOf at h
    split at h
    · split at h
      · cases h
      · exact .inl ⟨_, (Except.error.inj h).symm⟩
    · exact .inr ⟨_, (Except.error.inj h).symm⟩
    · exact .inr ⟨_, (Except.error.inj h).symm⟩
    · exact .inl ⟨_, (Except.error.inj h).symm⟩

end CommandLine

end Winnow

import Winnow.Proofs.Composer.Running
import Winnow.Proofs.Numeral.Reading

/-!
# What the store holds

Only two events write to the store: an apply, which writes the set as it is, and a reset, which
writes the set without filters.  An apply of a set that has no text writes nothing.

* `Composer.written?` : the set that an event writes, if it writes one;
* `Composer.written` : the sets that a run writes, in their order;
* `Composer.perform_store` : an event saves the set that it writes, and leaves the store alone
  otherwise;
* `Composer.run_store` : after a run the store holds the text of the last set that was written.
-/

namespace Winnow.Composer

/-- The set that an event writes to the store, if it writes one. -/
def written? (c : Composer) : ComposerEvent → Option FilterSet
  | .apply =>
    match c.set.serialize with
    | .ok _ => some c.set
    | .error _ => none
  | .reset => some c.set.clear
  | .drag _ | .update _ _ | .remove _ | .clear => none

/-- The sets that a run of events writes to the store, in their order. -/
def written (c : Composer) : List (Surroundings × ComposerEvent) → List FilterSet
  | [] => []
  | e :: events => (c.written? e.2).toList ++ (c.perform e.1 e.2).written events

variable {c : Composer} {around : Surroundings}

/-! ## One event -/

theorem persist_of_serialize {t : Text} (h : c.set.serialize = .ok t) :
    c.persist = (.ok (), { c with store := c.store.save t.utf8 }) := by
  simp only [persist, h]

theorem apply_of_serialize {t : Text} (h : c.set.serialize = .ok t) :
    (c.apply around).2.store = c.store.save t.utf8 := by
  simp only [apply, persist_of_serialize h]

/-- An apply of a set that has no text does nothing. -/
theorem apply_of_unserializable {fault : Fault} (h : c.set.serialize = .error fault) :
    c.apply around = (.error fault, c) := by
  simp only [apply, persist, h]
  rfl

theorem serialize_clear (s : FilterSet) : s.clear.serialize = .ok "[]" := rfl

theorem reset_store (c : Composer) : c.reset.2.store = c.store.save ("[]" : Text).utf8 := by
  simp only [reset, persist_of_serialize (c := c.clear) (serialize_clear c.set)]
  rfl

theorem update_store (around : Surroundings) (c : Composer) (id : Value)
    (changes : Value.Entries) : (c.performOn around (.update id changes)).store = c.store := by
  simp only [performOn]
  split
  · rename_i updated d h
    obtain ⟨p, -, h⟩ := Outcome.of_bind_ok h
    obtain ⟨⟨f, set⟩, -, h⟩ := Outcome.of_bind_ok h
    cases h
    rfl
  · rfl

/-- **An event saves the set that it writes**, as its text, and leaves the store alone if it writes
none. -/
theorem perform_store (around : Surroundings) (c : Composer) (e : ComposerEvent) :
    (∀ s, c.written? e = some s →
      ∃ t, s.serialize = .ok t ∧ (c.perform around e).store = c.store.save t.utf8) ∧
    (c.written? e = none → (c.perform around e).store = c.store) := by
  cases e with
  | drag e => exact ⟨by simp [written?], fun _ => handle_store (c.onDay around.rules.today) e⟩
  | update id changes => exact ⟨by simp [written?], fun _ => update_store around _ id changes⟩
  | remove id => exact ⟨by simp [written?], fun _ => rfl⟩
  | clear => exact ⟨by simp [written?], fun _ => rfl⟩
  | apply =>
    -- the text of a set does not tell the day
    have hday : (c.onDay around.rules.today).set.serialize = c.set.serialize := rfl
    cases h : c.set.serialize with
    | ok t =>
      have hsaved : (c.perform around .apply).store = c.store.save t.utf8 :=
        apply_of_serialize (hday.trans h)
      simp only [written?, h, Option.some.injEq]
      refine ⟨?_, by simp⟩
      rintro s rfl
      exact ⟨t, h, hsaved⟩
    | error fault =>
      have hkept : (c.perform around .apply).store = c.store := by
        simp only [perform, performOn, apply_of_unserializable (hday.trans h), onDay_store]
      simp only [written?, h]
      exact ⟨by simp, fun _ => hkept⟩
  | reset =>
    refine ⟨?_, by simp [written?]⟩
    rintro s ⟨⟩
    exact ⟨"[]", serialize_clear c.set, reset_store (c.onDay around.rules.today)⟩

/-! ## Runs -/

theorem written_concat (c : Composer) (events : List (Surroundings × ComposerEvent))
    (e : Surroundings × ComposerEvent) :
    c.written (events ++ [e]) =
      c.written events ++ ((c.run events).written? e.2).toList := by
  induction events generalizing c with
  | nil => simp [written]
  | cons e' events ih => simp [written, ih]

/-- The store after a run holds the text of the last set that was written, or what it held at
first. -/
theorem run_store_last (c : Composer) (events : List (Surroundings × ComposerEvent)) :
    (∀ s, (c.written events).getLast? = some s →
      ∃ t, s.serialize = .ok t ∧ (c.run events).store = c.store.save t.utf8) ∧
    ((c.written events).getLast? = none → (c.run events).store = c.store) := by
  induction events using List.reverseRecOn with
  | nil => exact ⟨by simp [written], fun _ => rfl⟩
  | append_singleton events e ih =>
    obtain ⟨hwrites, hkeeps⟩ := perform_store e.1 (c.run events) e.2
    rw [written_concat, run_concat, List.getLast?_append]
    cases hwritten : (c.run events).written? e.2 with
    | none =>
      rw [hkeeps hwritten]
      simpa using ih
    | some s =>
      obtain ⟨t, ht, hstore⟩ := hwrites s hwritten
      -- what was saved before is saved over
      have hover : (c.run events).store.save t.utf8 = c.store.save t.utf8 := by
        cases hlast : (c.written events).getLast? with
        | none => rw [ih.2 hlast]
        | some s' =>
          obtain ⟨t', -, hold⟩ := ih.1 s' hlast
          rw [hold]
          rfl
      refine ⟨?_, by simp⟩
      intro s' hs'
      obtain rfl : s = s' := by simpa using hs'
      exact ⟨t, ht, hstore.trans hover⟩

/-- A composer of one filter with a number. -/
def ofNumber (n : Nat) : Composer :=
  { newDirectory with
    set := { newDirectory.set with
      filters := [⟨"a", "salary", .known .equals, .int n, none⟩] } }

/-- A set with a number of too many digits has no text. -/
theorem serialize_ofNumber {n : Nat} (h : Numeral.digitLimit < (Numeral.digits n).length) :
    (ofNumber n).set.serialize = .error (.digitLimit none) := by
  have htext : Numeral.ofInt n = .error (.digitLimit none) := by
    rw [Numeral.ofInt, Int.natAbs_natCast, if_pos h]
  have hentry : Filter.entry ⟨"a", "salary", .known .equals, .int n, none⟩ =
      .ok (.object [("id", .text "a"), ("definitionId", .text "salary"),
        ("operator", .text Operator.equals.word), ("value", .int n)]) := rfl
  simp only [ofNumber, FilterSet.serialize, FilterSet.entries, List.mapM_cons, List.mapM_nil,
    hentry, bind, Except.bind, pure, Except.pure, Value.json, Value.jsonAt, Value.jsonItems,
    Value.jsonEntries, htext]

/-- A salary filter is composed, everything is reset, and a salary filter is composed again. -/
def salaryReset : List (Surroundings × ComposerEvent) :=
  dropSalary ++ (.bundled, .reset) :: dropSalary

end Winnow.Composer

import Winnow.Proofs.CommandLine.Records
import Winnow.Proofs.CommandLine.Running
import Winnow.Proofs.Json.Printing

/-!
# Endings of a run

A run prints a JSON text, or it says why it was refused, or something fails in it, and then it says
nothing.  A value as it is read from a JSON text is printed and read back, unless it has surrogates;
then printing fails.

* `Outcome.Prints`, `Outcome.IsRefused`, `Outcome.Fails` : the three endings, of which a run has one
  at most;
* `CommandLine.printed_cases`, `CommandLine.printing_cases` : how the printing of a value ends.
-/

namespace Winnow

open Json (Fits)

namespace CommandLine

/-! ## Endings -/

namespace Outcome

/-- A run exits with zero and has printed a text that is read as a value.  What is read is JSON, with
words for the numbers that JSON does not have. -/
structure Prints (v : Value) (o : Outcome) : Prop where
  exitCode : o.exitCode = 0
  orderly : o.fault? = none
  output : Json.read o.output = .ok v

/-- A run exits with one and has said why it was refused, and nothing else. -/
structure IsRefused (reason : Text) (o : Outcome) : Prop where
  exitCode : o.exitCode = 1
  orderly : o.fault? = none
  output : o.output = []
  errors : o.errors = complaint reason

/-- Something failed in a run, which exits with one and has printed nothing. -/
structure Fails (o : Outcome) : Prop where
  exitCode : o.exitCode = 1
  fault : ∃ fault, o.fault? = some fault
  output : o.output = []

/-- A run on the content of a file of records ends cleanly: it prints the JSON text of a value, or it
says what is wrong with the records. -/
def EndsCleanly (listed : Bytes) (o : Outcome) : Prop :=
  (∃ v, o.Prints v) ∨ ∃ reason, listed.Misfit reason ∧ o.IsRefused reason

variable {o : Outcome} {v : Value} {reason : Text}

theorem Fails.not_prints (h : o.Fails) : ¬ o.Prints v := by
  intro hprints
  obtain ⟨fault, hfault⟩ := h.fault
  rw [hprints.orderly] at hfault
  cases hfault

theorem Fails.not_refused (h : o.Fails) : ¬ o.IsRefused reason := by
  intro hrefused
  obtain ⟨fault, hfault⟩ := h.fault
  rw [hrefused.orderly] at hfault
  cases hfault

theorem Fails.not_endsCleanly (h : o.Fails) (listed : Bytes) : ¬ o.EndsCleanly listed := by
  rintro (⟨v, hprints⟩ | ⟨reason, -, hrefused⟩)
  · exact h.not_prints hprints
  · exact h.not_refused hrefused

theorem isRefused_ofEnding (f : Folder) (reason : Text) :
    (ofEnding f (.refusal reason)).IsRefused reason := ⟨rfl, rfl, rfl, rfl⟩

theorem fails_ofEnding (f : Folder) (fault : Fault) : (ofEnding f (.failure fault)).Fails :=
  ⟨rfl, ⟨fault, rfl⟩, rfl⟩

end Outcome

/-! ## Printing -/

/-- **What is printed is read back**, as far as the reader may nest; a value with surrogates is not
printed, and nothing else keeps it from being printed. -/
theorem printed_cases {v : Value} (hv : Fits Json.nestingLimit v) :
    (v.Storable ∧ ∃ t, printed v = .ok t ∧ Json.read t = .ok v) ∨
      (¬ v.Storable ∧ printed v = .error .unencodable) := by
  obtain ⟨t, ht, hshows⟩ := hv.exists_page 0
  have hprinted : printed v = do discard t.toUtf8; return t ++ "\n" := by
    unfold printed
    rw [Value.json, ht]
    rfl
  by_cases hstorable : v.Storable
  · refine .inl ⟨hstorable, t ++ "\n", ?_, ?_⟩
    · rw [hprinted, Text.toUtf8, if_pos (hshows.mpr hstorable)]
      rfl
    · exact hv.read_page (Nat.le_refl _) hstorable ht (List.forall_mem_singleton.mpr rfl)
  · refine .inr ⟨hstorable, ?_⟩
    rw [hprinted, Text.toUtf8, if_neg (mt hshows.mp hstorable)]
    rfl

/-- The end of a run that prints a value. -/
def printing (g : Folder) (v : Value) : Outcome :=
  .ofExcept g do return .done (← Ending.ofStep (printed v)) g

/-- **A value as the reader gives it is printed and read back**, or printing fails, since there are
surrogates in it. -/
theorem printing_cases {v : Value} (hv : Fits Json.nestingLimit v) (g : Folder) :
    v.Storable ∧ (printing g v).Prints v ∨ ¬ v.Storable ∧ (printing g v).Fails := by
  rcases printed_cases hv with ⟨hstorable, t, ht, hread⟩ | ⟨hstorable, herror⟩
  · refine .inl ⟨hstorable, ?_⟩
    unfold printing
    rw [ht]
    exact ⟨rfl, rfl, hread⟩
  · refine .inr ⟨hstorable, ?_⟩
    unfold printing
    rw [herror]
    exact Outcome.fails_ofEnding g _

end CommandLine

end Winnow

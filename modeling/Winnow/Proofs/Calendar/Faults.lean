import Winnow.Proofs.Outcome
import Winnow.Value.Coercion

/-!
# How the reading of a date fails

A text that is no date has no moment.  Only one thing makes the reading fail: an hour or a minute
with more digits before its point than decimal arithmetic keeps.  So a text without numerals that
are so long is read on every day, be it with a moment or without.

* `Freeform.Reads` : a reading fails only in some ways, and what it finds has a property;
* `Freeform.Covers` : the failure at a long numeral is among these ways, if a token is one;
* `Freeform.Draft.reads_step`, `Freeform.Draft.reads_gather` : a step fails only in ways that cover
  its tokens, and leaves tokens that they cover, so all steps fail only in these ways;
* `Freeform.HasLongNumeral`, `Moment.ofWritten_faults` : a written date fails only at too many digits
  before a point, and only if it has a numeral with so many.
-/

namespace Winnow.Freeform

open Outcome

variable {α β : Type} {E : Fault → Prop} {Q : α → Prop} {S : β → Prop}

/-! ## Options whose value has a property -/

/-- What an option holds, if it holds something, has a property. -/
def Holds (Q : α → Prop) (o : Option α) : Prop := ∀ a, o = some a → Q a

theorem holds_some {a : α} (h : Q a) : Holds Q (some a) := by
  rintro _ ⟨⟩
  exact h

theorem holds_none : Holds Q none := by
  rintro _ ⟨⟩

theorem holds_bind {o : Option α} {f : α → Option β} (hf : ∀ a, Holds S (f a)) :
    Holds S (o >>= f) := by
  intro b hb
  obtain ⟨a, -, hb⟩ := Option.bind_eq_some_iff.mp hb
  exact hf a b hb

theorem holds_map {o : Option α} {f : α → β} (hf : ∀ a, S (f a)) : Holds S (o.map f) := by
  rw [Option.map_eq_bind]
  exact holds_bind fun a => holds_some (hf a)

theorem Holds.ite {c : Prop} [Decidable c] {o p : Option α} (ho : Holds Q o) (hp : Holds Q p) :
    Holds Q (if c then o else p) := by
  split
  · exact ho
  · exact hp

/-! ## Readings that fail only in some ways -/

/-- A reading fails only in some ways, and what it finds, if it finds something, has a property. -/
structure Reads (E : Fault → Prop) (Q : α → Prop) (x : Reading α) : Prop where
  fails : FailsWith E x.run
  finds : ∀ a, x.run = .ok (some a) → Q a

theorem reads_option {o : Option α} (h : Holds Q o) : Reads E Q (liftM o : Reading α) := by
  refine ⟨failsWith_pure o, ?_⟩
  rintro a ⟨⟩
  exact h a rfl

theorem reads_pure {a : α} (h : Q a) : Reads E Q (pure a : Reading α) :=
  reads_option (holds_some h)

theorem reads_failure : Reads E Q (failure : Reading α) := reads_option holds_none

theorem reads_except {x : Except Fault α} (h : FailsWith E x) :
    Reads E (fun _ => True) (liftM x : Reading α) :=
  ⟨h.bind fun a => failsWith_pure (some a), fun _ _ => trivial⟩

theorem Reads.bind {x : Reading α} {f : α → Reading β} (hx : Reads E Q x)
    (hf : ∀ a, Q a → Reads E S (f a)) : Reads E S (x >>= f) := by
  constructor
  · intro fault hfault
    rcases of_bind_error hfault with hfault | ⟨o, ho, hfault⟩
    · exact hx.fails fault hfault
    · cases o with
      | none => cases hfault
      | some a => exact (hf a (hx.finds a ho)).fails fault hfault
  · intro b hb
    obtain ⟨o, ho, hb⟩ := of_bind_ok hb
    cases o with
    | none => cases hb
    | some a => exact (hf a (hx.finds a ho)).finds b hb

theorem reads_option_bind {o : Option α} {f : α → Reading β}
    (hf : ∀ a, o = some a → Reads E S (f a)) : Reads E S ((liftM o : Reading α) >>= f) :=
  Reads.bind (Q := fun a => o = some a) (reads_option fun _ ha => ha) hf

theorem Reads.ite {c : Prop} [Decidable c] {x y : Reading α} (hx : Reads E Q x)
    (hy : Reads E Q y) : Reads E Q (if c then x else y) := by
  split
  · exact hx
  · exact hy

/-! ## The parts of a step -/

/-- Some ways to fail cover a token: if it is a numeral with more digits before its point than
decimal arithmetic keeps, the failure at these is among them. -/
def Covers (E : Fault → Prop) (token : Token) : Prop :=
  ∀ a, Amount.ofToken? token = some a → Nat.pow 10 Amount.precision ≤ a.whole → E .tooManyPlaces

theorem covers_sign {sign : Char} (h : sign.isDigit = false) : Covers E [sign] := by
  intro a ha
  have hnone : Amount.ofToken? [sign] = none := by
    simp only [Amount.ofToken?, List.takeWhile_cons, h, Bool.false_eq_true, if_false]
    rfl
  rw [hnone] at ha
  cases ha

theorem failsWith_sixtieths {token : Token} {a : Amount} (h : Covers E token)
    (ha : Amount.ofToken? token = some a) : FailsWith E a.sixtieths := by
  unfold Amount.sixtieths
  split
  · rename_i hlong
    exact failsWith_error (h a ha hlong)
  · exact failsWith_ok _

namespace Draft

/-- The tokens that are to be read after a step are covered. -/
def LeavesCovered (E : Fault → Prop) (p : Progress) : Prop := ∀ token ∈ p.after, Covers E token

variable {token separator : Token} {after : List Token}

theorem failsWith_setMinute (d : Draft) {a : Amount} (h : Covers E token)
    (ha : Amount.ofToken? token = some a) : FailsWith E (d.setMinute a) :=
  (failsWith_sixtieths h ha).bind fun _ => failsWith_pure _

theorem reads_setUnit (d : Draft) (unit : Nat) {a : Amount} (h : Covers E token)
    (ha : Amount.ofToken? token = some a) :
    Reads E (fun _ => True) (d.setUnit unit token a) := by
  unfold setUnit
  split
  · exact (reads_except (failsWith_sixtieths h ha)).bind fun _ _ => reads_pure trivial
  · exact reads_except (failsWith_setMinute d h ha)
  · exact reads_option fun _ _ => trivial
  · exact reads_pure trivial

theorem holds_separated (d : Draft) (token : Token) (h : ∀ t ∈ separator :: after, Covers E t) :
    Holds (LeavesCovered E) (d.separated token separator after) := by
  unfold separated
  refine holds_bind fun _ => ?_
  split
  · exact holds_some h
  · refine (holds_some h).ite (Holds.ite (holds_bind fun _ => ?_)
      (holds_bind fun _ => holds_bind fun _ => ?_))
    all_goals
      split
      · refine Holds.ite (holds_bind fun _ => ?_) (holds_some h)
        split
        · exact holds_bind fun _ => holds_some h
        · exact holds_bind fun _ => holds_some h
      · exact holds_some h

theorem holds_plain (d : Draft) (a : Amount) (h : ∀ t ∈ after, Covers E t) :
    Holds (LeavesCovered E) (d.plain a after) := by
  unfold plain
  split
  · exact holds_map fun _ => h
  · refine Holds.ite ?_ ?_
    · split
      · exact holds_some h
      · exact holds_map fun _ => h
    · split
      · exact holds_some h
      · exact holds_bind fun _ => Holds.ite (holds_bind fun _ => holds_some h) holds_none

theorem holds_monthName (present : Nat → Nat) (d : Draft) (month : Nat)
    (h : ∀ t ∈ after, Covers E t) : Holds (LeavesCovered E) (d.monthName present month after) := by
  unfold monthName
  refine holds_bind fun _ => ?_
  split
  · exact holds_some h
  · refine Holds.ite (holds_bind fun _ => holds_bind fun _ => ?_) ?_
    · split
      · exact Holds.ite (holds_bind fun _ => holds_bind fun _ => holds_some h) (holds_some h)
      · exact holds_some h
    · split
      · refine Holds.ite ?_ (holds_some h)
        split
        · exact holds_bind fun _ => holds_some h
        · exact holds_none.ite (holds_some h)
      · exact holds_some h

/-- A sign after the name of a zone is turned round. -/
theorem leavesCovered_nameZone (d : Draft) (token : Token) (h : ∀ t ∈ after, Covers E t) :
    LeavesCovered E (d.nameZone token after) := by
  unfold nameZone
  dsimp only
  split
  · exact List.forall_mem_cons.mpr ⟨covers_sign rfl, (List.forall_mem_cons.mp h).2⟩
  · exact List.forall_mem_cons.mpr ⟨covers_sign rfl, (List.forall_mem_cons.mp h).2⟩
  · exact h

theorem holds_offset (d : Draft) (negative : Bool) (h : ∀ t ∈ after, Covers E t) :
    Holds (LeavesCovered E) (d.offset negative after) := by
  unfold offset
  refine holds_bind fun digits => ?_
  -- however the digits are read, they are hours, minutes and a number of tokens
  refine Holds.ite (holds_bind fun _ => holds_bind fun _ => holds_bind ?_) ?_
  on_goal 2 => split
  on_goal 2 => refine holds_bind fun _ => holds_bind fun _ => holds_bind fun _ => holds_bind ?_
  on_goal 3 => refine Holds.ite (holds_bind fun _ => holds_bind ?_) (holds_bind ?_)
  all_goals
    rintro ⟨hours, minutes, used⟩
    dsimp only
    split
    · exact Holds.ite (holds_some h) (holds_some h)
    · exact holds_some h

theorem reads_numeral (d : Draft) (before : List Token) (hnow : Covers E token)
    (h : ∀ t ∈ after, Covers E t) :
    Reads E (LeavesCovered E) (d.numeral before token after) := by
  unfold numeral
  refine reads_option_bind fun a ha => ?_
  refine Reads.ite ?_ (Reads.ite (Reads.ite ?_ ?_) (Reads.ite ?_ ?_))
  · exact reads_option_bind fun _ _ =>
      Reads.ite (reads_option_bind fun _ _ => reads_pure h) (reads_pure h)
  · exact reads_option_bind fun _ _ => reads_option_bind fun _ _ =>
      reads_option_bind fun _ _ => reads_pure h
  · exact reads_option_bind fun _ _ => reads_option_bind fun _ _ =>
      reads_option_bind fun _ _ => reads_pure h
  · refine reads_option_bind fun _ _ => reads_option_bind fun _ _ =>
      reads_option_bind fun _ _ => Reads.ite (reads_pure h) ?_
    exact reads_option_bind fun _ _ => reads_option_bind fun _ _ =>
      Reads.ite (reads_pure h) (reads_option_bind fun _ _ => reads_pure h)
  · split
    · exact (reads_setUnit d _ hnow ha).bind fun _ _ => reads_pure h
    · split
      · refine reads_option_bind fun b hb => ?_
        refine (reads_except (failsWith_setMinute _ (h _ (by simp)) hb)).bind fun _ _ => ?_
        split
        · exact reads_option_bind fun _ _ => reads_pure h
        · exact reads_pure h
      · exact Reads.ite (reads_option (holds_separated d token h))
          (reads_option (holds_plain d a h))
      · exact reads_option (holds_plain d a h)

/-- **A step fails only in ways that cover its tokens**, and leaves tokens that they cover. -/
theorem reads_step (present : Nat → Nat) (d : Draft) (before : List Token)
    (hnow : Covers E token) (h : ∀ t ∈ after, Covers E t) :
    Reads E (LeavesCovered E) (d.step present before token after) := by
  unfold step
  refine Reads.ite (reads_numeral d before hnow h) (reads_failure.ite ?_)
  split
  · exact reads_pure h
  · split
    · exact reads_option (holds_monthName present d _ h)
    · split
      · split
        · exact Reads.ite (reads_pure h) reads_failure
        · exact reads_failure
      · exact Reads.ite (reads_pure (leavesCovered_nameZone d token h))
          (Reads.ite (reads_option (holds_offset d _ h))
            (Reads.ite (reads_pure h) reads_failure))

theorem reads_gather (present : Nat → Nat) (fuel : Nat) (d : Draft) (before after : List Token)
    (h : ∀ t ∈ after, Covers E t) :
    Reads E (fun _ => True) (d.gather present fuel before after) := by
  induction fuel generalizing d before after with
  | zero =>
    cases after with
    | nil => exact reads_pure trivial
    | cons token after => exact reads_failure
  | succ fuel ih =>
    cases after with
    | nil => exact reads_pure trivial
    | cons token after =>
      obtain ⟨hnow, hafter⟩ := List.forall_mem_cons.mp h
      refine (reads_step present d before hnow hafter).bind fun p hp => ?_
      exact ih _ _ _ fun t ht => hp t (List.mem_of_mem_drop ht)

end Draft

/-- A text has a numeral with more digits before its point than decimal arithmetic keeps. -/
def HasLongNumeral (t : Text) : Prop :=
  ∃ token ∈ tokens (t.strip.map CodePoint.plainChar), ∃ a, Amount.ofToken? token = some a ∧
    Nat.pow 10 Amount.precision ≤ a.whole

end Winnow.Freeform

namespace Winnow.Moment

open Freeform Outcome

/-- **The reading of a written date fails only at too many digits before a point**, and only if it
has a numeral with so many. -/
theorem ofWritten_faults (today : Date) (t : Text) :
    FailsWith (fun fault => fault = .tooManyPlaces ∧ HasLongNumeral t) (ofWritten today t) := by
  have hread : FailsWith (fun fault => fault = .tooManyPlaces ∧ HasLongNumeral t)
      (ofFreeform today t.strip).run :=
    ((Draft.reads_gather _ _ _ _ _ fun token htoken a ha hlong =>
      ⟨rfl, token, htoken, a, ha, hlong⟩).bind fun _ _ => reads_option fun _ _ => trivial).fails
  unfold ofWritten
  split
  · exact failsWith_ok _
  · unfold ofText
    split
    · exact failsWith_ok _
    · exact hread.bind fun _ => failsWith_pure _

end Winnow.Moment

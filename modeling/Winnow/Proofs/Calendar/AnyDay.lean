import Winnow.Proofs.Calendar.Faults

/-!
# Written dates on other days

A written date may leave parts out, which are those of the day on which it is read, so one text can
be a date on one day and none on another.  The day decides only which numbers a draft holds, never
how many they are nor what else is in the draft.  A text that was a date on one day is therefore
never read with a failure on another.

* `Freeform.Draft.Alike` : drafts that differ in the sizes of their numbers only;
* `Freeform.Follows` : a reading gets through, or finds no date, where another one got through;
* `Freeform.Draft.follows_step`, `Freeform.Draft.follows_gather` : the steps of reading and their
  run do so from drafts that are alike;
* `Moment.ofWritten_anyDay` : a text with a moment on one day is read on every day.
-/

namespace Winnow.Freeform

variable {α β : Type}

/-! ## Readings that follow one another -/

/-- Two results are related, if there are two. -/
def Agree (R : α → α → Prop) (o p : Option α) : Prop := ∀ a b, o = some a → p = some b → R a b

/-- Where one reading gets through, the other one does so with a related result or finds no date. -/
def Follows (R : α → α → Prop) (x y : Reading α) : Prop :=
  ∀ a, x.run = .ok (some a) → y.run = .ok none ∨ ∃ b, y.run = .ok (some b) ∧ R a b

variable {R : α → α → Prop} {S : β → β → Prop}

theorem agree_some {a b : α} (h : R a b) : Agree R (some a) (some b) := by
  rintro _ _ ⟨⟩ ⟨⟩
  exact h

theorem agree_none (p : Option α) : Agree R none p := nofun

theorem Agree.bind {o p : Option α} {f g : α → Option β} (ho : Agree R o p)
    (hf : ∀ a b, R a b → Agree S (f a) (g b)) : Agree S (o >>= f) (p >>= g) := by
  intro c d hc hd
  obtain ⟨a, ha, hc⟩ := Option.bind_eq_some_iff.mp hc
  obtain ⟨b, hb, hd⟩ := Option.bind_eq_some_iff.mp hd
  exact hf a b (ho a b ha hb) c d hc hd

theorem agree_same_bind {o : Option α} {f g : α → Option β} (hf : ∀ a, Agree S (f a) (g a)) :
    Agree S (o >>= f) (o >>= g) :=
  Agree.bind (R := Eq) (fun _ _ ha hb => Option.some_inj.mp (ha.symm.trans hb)) fun a _ h => h ▸ hf a

theorem follows_pure {a b : α} (h : R a b) : Follows R (pure a) (pure b) := by
  rintro _ ⟨⟩
  exact .inr ⟨b, rfl, h⟩

theorem follows_failure (x : Reading α) : Follows R x failure := fun _ _ => .inl rfl

theorem follows_option {o p : Option α} (h : Agree R o p) :
    Follows R (liftM o : Reading α) (liftM p) := by
  intro a ha
  cases o with
  | none => cases ha
  | some c =>
    cases ha
    cases p with
    | none => exact .inl rfl
    | some b => exact .inr ⟨b, rfl, h _ _ rfl rfl⟩

theorem follows_except {x y : Except Fault α} (h : ∀ a, x = .ok a → ∃ b, y = .ok b ∧ R a b) :
    Follows R (liftM x : Reading α) (liftM y) := by
  intro a ha
  cases x with
  | error fault => cases ha
  | ok c =>
    cases ha
    obtain ⟨b, rfl, hab⟩ := h _ rfl
    exact .inr ⟨b, rfl, hab⟩

theorem Follows.bind {x y : Reading α} {f g : α → Reading β} (hx : Follows R x y)
    (hf : ∀ a b, R a b → Follows S (f a) (g b)) : Follows S (x >>= f) (y >>= g) := by
  intro c hc
  rw [OptionT.run_bind] at hc
  obtain ⟨o, ho, hc⟩ := Outcome.of_bind_ok hc
  cases o with
  | none => cases hc
  | some a =>
    rcases hx a ho with hnone | ⟨b, hb, hab⟩
    · exact .inl (by rw [OptionT.run_bind, hnone]; rfl)
    · have hrest := hf a b hab c hc
      rw [OptionT.run_bind, hb]
      exact hrest

theorem follows_same_bind {x : Reading α} {f g : α → Reading β} (hf : ∀ a, Follows S (f a) (g a)) :
    Follows S (x >>= f) (x >>= g) :=
  Follows.bind (R := Eq) (fun a ha => .inr ⟨a, ha, rfl⟩) fun a _ h => h ▸ hf a

theorem Follows.ite {c : Prop} [Decidable c] {x y x' y' : Reading α} (hx : Follows R x x')
    (hy : Follows R y y') : Follows R (if c then x else y) (if c then x' else y') := by
  split
  · exact hx
  · exact hy

theorem Agree.ite {c : Prop} [Decidable c] {o p o' p' : Option α} (ho : Agree R o o')
    (hp : Agree R p p') : Agree R (if c then o else p) (if c then o' else p') := by
  split
  · exact ho
  · exact hp

/-! ## Numbers and drafts that are alike -/

/-- As many numbers, with the year and the month at the same places. -/
structure DateNumbers.Alike (ns ms : DateNumbers) : Prop where
  length : ns.numbers.length = ms.numbers.length
  yearAt : ns.yearAt = ms.yearAt
  monthAt : ns.monthAt = ms.monthAt

/-- Drafts that differ in the sizes of their numbers only. -/
def Draft.Alike (d e : Draft) : Prop :=
  ∃ ms, d.numbers.Alike ms ∧ e = { d with numbers := ms }

/-- The same progress up to drafts that are alike. -/
structure Draft.Progress.Alike (p q : Draft.Progress) : Prop where
  used : p.used = q.used
  after : p.after = q.after
  draft : p.draft.Alike q.draft

namespace DateNumbers

variable {ns ms : DateNumbers}

theorem Alike.century (h : ns.Alike ms) (a b : Bool) :
    Alike { ns with century := a } { ms with century := b } :=
  ⟨h.length, h.yearAt, h.monthAt⟩

theorem agree_push (h : ns.Alike ms) (n m : Nat) (isYear : Bool) :
    Agree Alike (ns.push n isYear) (ms.push m isYear) := by
  obtain ⟨hlength, hyear, hmonth⟩ := h
  unfold push
  rw [hyear]
  refine Agree.ite (agree_none _) (agree_some ⟨?_, ?_, hmonth⟩)
  · simp [hlength]
  · simp [hlength]

theorem agree_pushMonth (h : ns.Alike ms) (n : Nat) :
    Agree Alike (ns.pushMonth n) (ms.pushMonth n) := by
  obtain ⟨hlength, hyear, hmonth⟩ := h
  unfold pushMonth
  rw [hmonth]
  refine Agree.ite (agree_none _) (agree_some ⟨?_, hyear, ?_⟩)
  · simp [hlength]
  · simp [hlength]

/-- The tokens may differ if both are years, or neither is. -/
theorem agree_pushToken (h : ns.Alike ms) {s t : Token} {asYear : Bool}
    (hyear : (asYear || decide (2 < s.length)) = (asYear || decide (2 < t.length))) :
    Agree Alike (ns.pushToken s asYear) (ms.pushToken t asYear) := by
  intro a b ha hb
  unfold pushToken at ha hb
  obtain ⟨n, -, ha⟩ := Option.bind_eq_some_iff.mp ha
  obtain ⟨m, -, hb⟩ := Option.bind_eq_some_iff.mp hb
  dsimp only at ha hb
  rw [hyear] at ha
  exact agree_push (h.century _ _) n m _ a b ha hb

theorem agree_pushAmount (h : ns.Alike ms) (a : Amount) :
    Agree Alike (ns.pushAmount a) (ms.pushAmount a) := by
  unfold pushAmount
  exact agree_push (h.century _ _) _ _ _

end DateNumbers

namespace Draft

open DateNumbers

variable {d e : Draft} {ns ms : DateNumbers}

/-! ## The parts of a step -/

theorem follows_setMinute (h : d.Alike e) (a : Amount) :
    Follows Alike (liftM (d.setMinute a)) (liftM (e.setMinute a)) := by
  obtain ⟨ms, hms, rfl⟩ := h
  refine follows_except fun b hb => ?_
  unfold setMinute at hb ⊢
  obtain ⟨second, hsecond, hb⟩ := Outcome.of_bind_ok hb
  cases hb
  rw [hsecond]
  exact ⟨_, rfl, ms, hms, rfl⟩

theorem agree_setSecond (h : d.Alike e) (token : Token) :
    Agree Alike (d.setSecond token) (e.setSecond token) := by
  obtain ⟨ms, hms, rfl⟩ := h
  unfold setSecond
  refine agree_same_bind fun whole => ?_
  split
  · exact agree_some ⟨ms, hms, rfl⟩
  · exact Agree.ite (agree_none _) (agree_some ⟨ms, hms, rfl⟩)

theorem follows_setUnit (h : d.Alike e) (unit : Nat) (token : Token) (a : Amount) :
    Follows Alike (d.setUnit unit token a) (e.setUnit unit token a) := by
  unfold setUnit
  split
  · obtain ⟨ms, hms, rfl⟩ := h
    exact follows_same_bind fun minute => follows_pure ⟨ms, hms, rfl⟩
  · exact follows_setMinute h a
  · exact follows_option (agree_setSecond h token)
  · exact follows_pure h

theorem agree_separated (h : ns.Alike ms) (d : Draft) (token separator : Token)
    (after : List Token) :
    Agree Progress.Alike ({ d with numbers := ns }.separated token separator after)
      ({ d with numbers := ms }.separated token separator after) := by
  unfold separated
  refine (agree_pushToken h rfl).bind fun ns ms h => ?_
  split
  · exact agree_some ⟨rfl, rfl, _, h, rfl⟩
  · refine Agree.ite (agree_some ⟨rfl, rfl, _, h, rfl⟩) ?_
    refine Agree.ite ((agree_pushToken h rfl).bind ?_)
      (agree_same_bind fun m => (agree_pushMonth h m).bind ?_)
    all_goals
      intro ns ms h
      split
      · refine Agree.ite (agree_same_bind fun last => ?_) (agree_some ⟨rfl, rfl, _, h, rfl⟩)
        split
        · exact (agree_pushMonth h _).bind fun ns ms h => agree_some ⟨rfl, rfl, _, h, rfl⟩
        · exact (agree_pushToken h rfl).bind fun ns ms h => agree_some ⟨rfl, rfl, _, h, rfl⟩
      · exact agree_some ⟨rfl, rfl, _, h, rfl⟩

theorem agree_counted (h : ns.Alike ms) (d : Draft) (a : Amount) (used : Nat)
    (after : List Token) :
    Agree Progress.Alike ((ns.pushAmount a).map fun ns => ⟨used, after, { d with numbers := ns }⟩)
      ((ms.pushAmount a).map fun ms => ⟨used, after, { d with numbers := ms }⟩) := by
  rw [Option.map_eq_bind, Option.map_eq_bind]
  exact (agree_pushAmount h a).bind fun _ _ h => agree_some ⟨rfl, rfl, _, h, rfl⟩

theorem agree_plain (h : ns.Alike ms) (d : Draft) (a : Amount) (after : List Token) :
    Agree Progress.Alike ({ d with numbers := ns }.plain a after)
      ({ d with numbers := ms }.plain a after) := by
  unfold plain
  split
  · exact agree_counted h d a 0 []
  · refine Agree.ite ?_ ?_
    · split
      · exact agree_some ⟨rfl, rfl, _, h, rfl⟩
      · exact agree_counted h d a _ _
    · split
      · exact agree_some ⟨rfl, rfl, _, h, rfl⟩
      · -- whether the number can be the day may depend on the numbers, but not how it counts
        refine Agree.bind (R := fun _ _ => True) (fun _ _ _ _ => trivial) fun b c _ => ?_
        cases b with
        | false => exact agree_none _
        | true =>
          cases c with
          | false => exact fun _ _ _ hnone => nomatch hnone
          | true =>
            exact (agree_pushAmount h a).bind fun _ _ h => agree_some ⟨rfl, rfl, _, h, rfl⟩

theorem follows_numeral (h : d.Alike e) (before : List Token) (token : Token)
    (after : List Token) :
    Follows Progress.Alike (d.numeral before token after) (e.numeral before token after) := by
  obtain ⟨ms, hms, rfl⟩ := h
  have hempty : d.numbers.numbers.isEmpty = ms.numbers.isEmpty := by
    rw [Bool.eq_iff_iff, List.isEmpty_iff_length_eq_zero, List.isEmpty_iff_length_eq_zero,
      hms.length]
  unfold numeral
  simp only [hms.length, hempty]
  refine follows_same_bind fun a => Follows.ite ?_ (Follows.ite (Follows.ite ?_ ?_)
    (Follows.ite ?_ ?_))
  · refine follows_same_bind fun hour => Follows.ite (follows_same_bind fun minute => ?_) ?_
    · exact follows_pure ⟨rfl, rfl, _, hms, rfl⟩
    · exact follows_pure ⟨rfl, rfl, _, hms, rfl⟩
  · refine (follows_option (agree_pushToken hms rfl)).bind fun _ _ h => ?_
    refine (follows_option (agree_pushToken h rfl)).bind fun _ _ h => ?_
    refine (follows_option (agree_pushToken h rfl)).bind fun _ _ h => ?_
    exact follows_pure ⟨rfl, rfl, _, h, rfl⟩
  · refine follows_same_bind fun hour => follows_same_bind fun minute => ?_
    refine Follows.bind (R := Alike) (follows_option (agree_setSecond ?_ _)) fun _ _ h => ?_
    · exact ⟨_, hms, rfl⟩
    · exact follows_pure ⟨rfl, rfl, h⟩
  · refine (follows_option (agree_pushToken hms rfl)).bind fun _ _ h => ?_
    refine (follows_option (agree_pushToken h rfl)).bind fun _ _ h => ?_
    refine (follows_option (agree_pushToken h rfl)).bind fun _ _ h => ?_
    refine Follows.ite (follows_pure ⟨rfl, rfl, _, h, rfl⟩) ?_
    refine follows_same_bind fun hour => follows_same_bind fun minute => ?_
    refine Follows.ite (follows_pure ⟨rfl, rfl, _, h, rfl⟩) ?_
    exact follows_same_bind fun second => follows_pure ⟨rfl, rfl, _, h, rfl⟩
  · split
    · refine (follows_setUnit ⟨_, hms, rfl⟩ _ _ _).bind fun _ _ h => ?_
      exact follows_pure ⟨rfl, rfl, h⟩
    · split
      · refine follows_same_bind fun minute => ?_
        refine Follows.bind (R := Alike) (follows_setMinute ?_ _) fun _ _ h => ?_
        · exact ⟨_, hms, rfl⟩
        · split
          · refine (follows_option (agree_setSecond h _)).bind fun _ _ h => ?_
            exact follows_pure ⟨rfl, rfl, h⟩
          · exact follows_pure ⟨rfl, rfl, h⟩
      · exact Follows.ite (follows_option (agree_separated hms d _ _ _))
          (follows_option (agree_plain hms d _ _))
      · exact follows_option (agree_plain hms d _ _)

/-- The present decides only which year a month of a year is in. -/
theorem agree_monthName (h : d.Alike e) (present present' : Nat → Nat) (month : Nat)
    (after : List Token) :
    Agree Progress.Alike (d.monthName present month after) (e.monthName present' month after) := by
  obtain ⟨ms, hms, rfl⟩ := h
  unfold monthName
  refine (agree_pushMonth hms month).bind fun _ _ h => ?_
  split
  · exact agree_some ⟨rfl, rfl, _, h, rfl⟩
  · refine Agree.ite ?_ ?_
    · refine agree_same_bind fun first => (agree_pushToken h rfl).bind fun _ _ h => ?_
      split
      · refine Agree.ite (agree_same_bind fun last => ?_) (agree_some ⟨rfl, rfl, _, h, rfl⟩)
        exact (agree_pushToken h rfl).bind fun _ _ h => agree_some ⟨rfl, rfl, _, h, rfl⟩
      · exact agree_some ⟨rfl, rfl, _, h, rfl⟩
    · split
      · refine Agree.ite ?_ (agree_some ⟨rfl, rfl, _, h, rfl⟩)
        split
        · refine Agree.bind (R := DateNumbers.Alike) (agree_pushToken h ?_) fun _ _ h => ?_
          · rfl
          · exact agree_some ⟨rfl, rfl, _, h, rfl⟩
        · exact Agree.ite (agree_none _) (agree_some ⟨rfl, rfl, _, h, rfl⟩)
      · exact agree_some ⟨rfl, rfl, _, h, rfl⟩

theorem alike_nameZone (h : d.Alike e) (token : Token) (after : List Token) :
    (d.nameZone token after).Alike (e.nameZone token after) := by
  obtain ⟨ms, hms, rfl⟩ := h
  unfold nameZone
  dsimp only
  split
  · exact ⟨rfl, rfl, _, hms, rfl⟩
  · exact ⟨rfl, rfl, _, hms, rfl⟩
  · exact ⟨rfl, rfl, _, hms, rfl⟩

theorem agree_offset (h : d.Alike e) (negative : Bool) (after : List Token) :
    Agree Progress.Alike (d.offset negative after) (e.offset negative after) := by
  obtain ⟨ms, hms, rfl⟩ := h
  unfold offset
  refine agree_same_bind fun digits => ?_
  -- however the digits are read, they are hours, minutes and a number of tokens
  refine Agree.ite (agree_same_bind fun _ => agree_same_bind fun _ => agree_same_bind ?_) ?_
  on_goal 2 => split
  on_goal 2 =>
    refine agree_same_bind fun _ => agree_same_bind fun _ => agree_same_bind fun _ => ?_
    refine agree_same_bind ?_
  on_goal 3 => refine Agree.ite (agree_same_bind fun _ => agree_same_bind ?_) (agree_same_bind ?_)
  all_goals
    rintro ⟨hours, minutes, used⟩
    dsimp only
    split
    · exact Agree.ite (agree_some ⟨rfl, rfl, _, hms, rfl⟩) (agree_some ⟨rfl, rfl, _, hms, rfl⟩)
    · exact agree_some ⟨rfl, rfl, _, hms, rfl⟩

/-! ## Steps and runs -/

/-- **A step follows another one** from a draft that is alike, whatever the present. -/
theorem follows_step (h : d.Alike e) (present present' : Nat → Nat) (before : List Token)
    (token : Token) (after : List Token) :
    Follows Progress.Alike (d.step present before token after)
      (e.step present' before token after) := by
  unfold step
  refine Follows.ite (follows_numeral h before token after) (Follows.ite (follows_failure _) ?_)
  split
  · obtain ⟨ms, hms, rfl⟩ := h
    exact follows_pure ⟨rfl, rfl, _, hms, rfl⟩
  · split
    · exact follows_option (agree_monthName h present present' _ after)
    · split
      · obtain ⟨ms, hms, rfl⟩ := h
        dsimp only
        split
        · exact Follows.ite (follows_pure ⟨rfl, rfl, _, hms, rfl⟩) (follows_failure _)
        · exact follows_failure _
      · have hnames := alike_nameZone h token after
        have hoffset := agree_offset h (token = ['-']) after
        obtain ⟨ms, hms, rfl⟩ := h
        refine Follows.ite (follows_pure hnames) (Follows.ite (follows_option hoffset) ?_)
        exact Follows.ite (follows_pure ⟨rfl, rfl, _, hms, rfl⟩) (follows_failure _)

theorem follows_gather (h : d.Alike e) (present present' : Nat → Nat) (fuel : Nat)
    (before after : List Token) :
    Follows Alike (d.gather present fuel before after) (e.gather present' fuel before after) := by
  induction fuel generalizing d e before after with
  | zero =>
    cases after with
    | nil => exact follows_pure h
    | cons token after => exact follows_failure _
  | succ fuel ih =>
    cases after with
    | nil => exact follows_pure h
    | cons token after =>
      refine (follows_step h present present' before token after).bind fun p q hpq => ?_
      obtain ⟨hused, hafter, hdraft⟩ := hpq
      rw [hused, hafter]
      exact ih hdraft _ _

end Draft

end Winnow.Freeform

namespace Winnow.Moment

open Freeform

theorem follows_ofFreeform (day day' : Date) (t : Text) :
    Follows (fun _ _ => True) (ofFreeform day t) (ofFreeform day' t) := by
  have hempty : Draft.empty.Alike Draft.empty := ⟨_, ⟨rfl, rfl, rfl⟩, rfl⟩
  refine (Draft.follows_gather hempty _ _ _ _ _).bind fun _ _ _ => ?_
  exact follows_option fun _ _ _ _ => trivial

/-- **A text with a moment on one day is read on every day**, be it with a moment or without. -/
theorem ofWritten_anyDay {day : Date} {t : Text} {m : Moment}
    (h : ofWritten day t = .ok (some m)) (day' : Date) : ∃ o, ofWritten day' t = .ok o := by
  unfold ofWritten at h ⊢
  split at h
  · cases h
  · rename_i hblank
    rw [if_neg hblank]
    unfold ofText at h ⊢
    split at h
    · exact ⟨_, rfl⟩
    · -- the text is no ISO text, so both days read it freely
      obtain ⟨o, hread, h⟩ := Outcome.of_bind_ok h
      cases o with
      | none => cases h
      | some n =>
        rcases follows_ofFreeform day day' t.strip n hread with hnone | ⟨k, hk, -⟩
        · exact ⟨none, by rw [hnone]; rfl⟩
        · exact ⟨some k.assumeUtc, by rw [hk]; rfl⟩

end Winnow.Moment

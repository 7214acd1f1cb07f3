import Winnow.FilterSet
import Winnow.Proofs.Filter.Direction
import Winnow.Proofs.Outcome

/-!
# Patches

A patch changes each part of a filter on its own: what it asks for takes the place of what was there
if it is accepted.

* `Patch.part_cases`, `Patch.apply_ok` : the parts of a filter after a patch that succeeded;
* `Patch.of_acceptedOperator`, `Patch.of_acceptedValue`, `Patch.of_acceptedSorting` : what is
  accepted;
* `Patch.Trips` : a patch asks for something at which it fails;
* `Patch.apply_eq`, `Patch.apply_of_trips` : every other patch makes `Patch.revised` of a filter;
* `Patch.foldl_revised_parts` : so do its parts one after the other, in whatever order.
-/

namespace Winnow.Patch

open Outcome

variable {α : Type} {accepted : Value → Except Fault (Option α)} {asked : Option Value}
  {old new : α} {v : Value}

/-! ## One part of a filter -/

/-- A part that was patched is what it was, or it was asked for and is accepted. -/
theorem part_cases (h : part accepted asked old = .ok new) :
    new = old ∨ ∃ v, asked = some v ∧ accepted v = .ok (some new) := by
  unfold part at h
  split at h
  · cases h
    exact .inl rfl
  · rename_i v
    obtain ⟨answer, hanswer, h⟩ := of_bind_ok h
    cases answer with
    | some w =>
      cases h
      exact .inr ⟨v, rfl, hanswer⟩
    | none =>
      obtain ⟨_, _, h⟩ := of_bind_ok h
      cases h
      exact .inl rfl

/-- What a patch asks for, if it is accepted. -/
def granted (accepted : Value → Except Fault (Option α)) (asked : Option Value) : Option α :=
  asked.bind fun v => (accepted v).toOption.join

theorem granted_eq_some_iff :
    granted accepted asked = some new ↔ ∃ v, asked = some v ∧ accepted v = .ok (some new) := by
  unfold granted
  rw [Option.bind_eq_some_iff]
  refine exists_congr fun v => and_congr_right fun _ => ?_
  cases accepted v with
  | error fault => exact ⟨nofun, nofun⟩
  | ok answer =>
    rw [Except.ok.injEq]
    rfl

/-- What a part of a filter becomes, if what is not accepted counts as not asked for. -/
def settled (accepted : Value → Except Fault (Option α)) (asked : Option Value) (old : α) : α :=
  (granted accepted asked).getD old

/-- A value at which a patch fails: it cannot be told whether it is accepted, or it is not accepted
and has too many digits for the log. -/
def TripsAt (accepted : Value → Except Fault (Option α)) (v : Value) : Prop :=
  (∃ fault, accepted v = .error fault) ∨ accepted v = .ok none ∧ ∃ fault, v.literal = .error fault

theorem part_of_not_tripsAt (h : ∀ v, asked = some v → ¬ TripsAt accepted v) (old : α) :
    part accepted asked old = .ok (settled accepted asked old) := by
  cases asked with
  | none => rfl
  | some v =>
    have hv : ¬ TripsAt accepted v := h v rfl
    unfold part settled granted
    cases hanswer : accepted v with
    | error fault => exact absurd (.inl ⟨fault, hanswer⟩) hv
    | ok answer =>
      cases answer with
      | some new => simp [hanswer, Except.toOption, bind, Except.bind, pure, Except.pure]
      | none =>
        cases hliteral : v.literal with
        | error fault => exact absurd (.inr ⟨hanswer, fault, hliteral⟩) hv
        | ok t => simp [hanswer, hliteral, Except.toOption, bind, Except.bind, pure, Except.pure]

theorem part_of_tripsAt (h : TripsAt accepted v) (old : α) :
    ∃ fault, part accepted (some v) old = .error fault := by
  rcases h with ⟨fault, hanswer⟩ | ⟨hanswer, fault, hliteral⟩
  · exact ⟨fault, by simp only [part, hanswer, bind, Except.bind]⟩
  · exact ⟨fault, by simp only [part, hanswer, hliteral, bind, Except.bind]⟩

theorem settled_of_tripsAt (h : TripsAt accepted v) (old : α) :
    settled accepted (some v) old = old := by
  unfold settled granted
  rcases h with ⟨fault, hanswer⟩ | ⟨hanswer, -⟩
  · rw [Option.bind_some, hanswer]
    rfl
  · rw [Option.bind_some, hanswer]
    rfl

theorem settled_settled (old : α) :
    settled accepted asked (settled accepted asked old) = settled accepted asked old := by
  unfold settled
  cases granted accepted asked <;> rfl

/-! ## What is accepted -/

theorem of_acceptedOperator {d : Option Definition} {choice : OperatorChoice}
    (h : acceptedOperator d v = .ok (some choice)) :
    ∃ definition o, d = some definition ∧ definition.allowed? v = some o ∧ choice = .known o := by
  rw [acceptedOperator, Except.ok.injEq, Option.map_eq_some_iff] at h
  obtain ⟨o, hallowed, rfl⟩ := h
  obtain ⟨definition, hd, hallowed⟩ := Option.bind_eq_some_iff.mp hallowed
  exact ⟨definition, o, hd, hallowed, rfl⟩

theorem of_acceptedValue {rules : Rules} {d : Option Definition} {w : Value}
    (h : acceptedValue rules d v = .ok (some w)) :
    ∃ definition, d = some definition ∧ definition.kind.admits rules v = .ok true ∧
      w = v.normalize := by
  unfold acceptedValue at h
  split at h
  · rename_i definition
    obtain ⟨admitted, hadmits, h⟩ := of_bind_ok h
    cases admitted with
    | false => cases h
    | true =>
      cases h
      exact ⟨definition, rfl, hadmits, rfl⟩
  · cases h

theorem of_acceptedSorting {sorting : Option Sorting}
    (h : acceptedSorting v = .ok (some sorting)) :
    v = .null ∧ sorting = none ∨
      ∃ direction, Direction.ofValue v = .ok direction ∧ sorting = some (.by direction) := by
  unfold acceptedSorting at h
  split at h
  · cases h
    exact .inl ⟨rfl, rfl⟩
  · rw [Except.ok.injEq, Option.map_eq_some_iff] at h
    obtain ⟨direction, hdirection, rfl⟩ := h
    refine .inr ⟨direction, ?_, rfl⟩
    cases hvalue : Direction.ofValue v with
    | error fault =>
      rw [hvalue] at hdirection
      cases hdirection
    | ok direction' =>
      rw [hvalue] at hdirection
      cases hdirection
      rfl

/-! ## A whole filter -/

variable {rules : Rules} {d : Option Definition} {p q r : Patch} {f g : Filter}

/-- **The parts of a filter after a patch.** -/
theorem apply_ok (h : p.apply rules d f = .ok g) :
    g.id = f.id ∧ g.definitionId = f.definitionId ∧
      part (acceptedOperator d) p.operator f.operator = .ok g.operator ∧
      part (acceptedValue rules d) p.value f.value = .ok g.value ∧
      part acceptedSorting p.sorting f.sorting = .ok g.sorting := by
  obtain ⟨operator, hoperator, h⟩ := of_bind_ok h
  obtain ⟨value, hvalue, h⟩ := of_bind_ok h
  obtain ⟨sorting, hsorting, h⟩ := of_bind_ok h
  cases h
  exact ⟨rfl, rfl, hoperator, hvalue, hsorting⟩

theorem apply_id (h : p.apply rules d f = .ok g) : g.id = f.id := (apply_ok h).1

theorem apply_definitionId (h : p.apply rules d f = .ok g) : g.definitionId = f.definitionId :=
  (apply_ok h).2.1

/-- A filter after a patch, if what is not accepted counts as not asked for. -/
def revised (rules : Rules) (d : Option Definition) (p : Patch) (f : Filter) : Filter :=
  { f with
    operator := settled (acceptedOperator d) p.operator f.operator
    value := settled (acceptedValue rules d) p.value f.value
    sorting := settled acceptedSorting p.sorting f.sorting }

/-- A patch asks for something at which it fails. -/
def Trips (rules : Rules) (d : Option Definition) (p : Patch) : Prop :=
  (∃ v, p.operator = some v ∧ TripsAt (acceptedOperator d) v) ∨
    (∃ v, p.value = some v ∧ TripsAt (acceptedValue rules d) v) ∨
    ∃ v, p.sorting = some v ∧ TripsAt acceptedSorting v

/-- **A patch that asks for nothing at which it fails settles each part by itself.** -/
theorem apply_eq (h : ¬ p.Trips rules d) (f : Filter) :
    p.apply rules d f = .ok (p.revised rules d f) := by
  unfold apply
  rw [part_of_not_tripsAt fun v hv htrips => h (.inl ⟨v, hv, htrips⟩),
    part_of_not_tripsAt fun v hv htrips => h (.inr (.inl ⟨v, hv, htrips⟩)),
    part_of_not_tripsAt fun v hv htrips => h (.inr (.inr ⟨v, hv, htrips⟩))]
  rfl

/-- Every other patch fails as a whole. -/
theorem apply_of_trips (h : p.Trips rules d) (f : Filter) :
    ∃ fault, p.apply rules d f = .error fault := by
  cases happly : p.apply rules d f with
  | error fault => exact ⟨fault, rfl⟩
  | ok g =>
    obtain ⟨-, -, hoperator, hvalue, hsorting⟩ := apply_ok happly
    rcases h with ⟨v, hv, htrips⟩ | ⟨v, hv, htrips⟩ | ⟨v, hv, htrips⟩
    · obtain ⟨fault, hfail⟩ := part_of_tripsAt htrips f.operator
      rw [hv, hfail] at hoperator
      cases hoperator
    · obtain ⟨fault, hfail⟩ := part_of_tripsAt htrips f.value
      rw [hv, hfail] at hvalue
      cases hvalue
    · obtain ⟨fault, hfail⟩ := part_of_tripsAt htrips f.sorting
      rw [hv, hfail] at hsorting
      cases hsorting

theorem revised_revised (f : Filter) :
    p.revised rules d (p.revised rules d f) = p.revised rules d f := by
  simp only [revised, settled_settled]

/-! ## One part at a time -/

/-- The patches that ask for one thing each, and together for what a patch asks for. -/
def parts (p : Patch) : List Patch :=
  (p.operator.map fun v => { empty with operator := some v }).toList ++
    (p.value.map fun v => { empty with value := some v }).toList ++
    (p.sorting.map fun v => { empty with sorting := some v }).toList

/-- A patch asks for one of the things that another one asks for. -/
inductive IsPart (p : Patch) : Patch → Prop
  | operator {v : Value} (h : p.operator = some v) : IsPart p { empty with operator := some v }
  | value {v : Value} (h : p.value = some v) : IsPart p { empty with value := some v }
  | sorting {v : Value} (h : p.sorting = some v) : IsPart p { empty with sorting := some v }

theorem isPart_of_mem (h : q ∈ p.parts) : p.IsPart q := by
  simp only [parts, List.mem_append, Option.mem_toList, Option.map_eq_some_iff] at h
  rcases h with (⟨v, hv, rfl⟩ | ⟨v, hv, rfl⟩) | ⟨v, hv, rfl⟩
  · exact .operator hv
  · exact .value hv
  · exact .sorting hv

/-- A part of a patch leaves a filter as it is where it fails. -/
theorem IsPart.revised_of_trips (hq : p.IsPart q) (h : q.Trips rules d) (f : Filter) :
    q.revised rules d f = f := by
  -- what a part does not ask for it cannot fail at
  cases hq with
  | operator =>
    rcases h with ⟨w, hw, htrips⟩ | ⟨w, hw, -⟩ | ⟨w, hw, -⟩ <;> cases hw
    exact congrArg (fun o => { f with operator := o }) (settled_of_tripsAt htrips f.operator)
  | value =>
    rcases h with ⟨w, hw, -⟩ | ⟨w, hw, htrips⟩ | ⟨w, hw, -⟩ <;> cases hw
    exact congrArg (fun v => { f with value := v }) (settled_of_tripsAt htrips f.value)
  | sorting =>
    rcases h with ⟨w, hw, -⟩ | ⟨w, hw, -⟩ | ⟨w, hw, htrips⟩ <;> cases hw
    exact congrArg (fun s => { f with sorting := s }) (settled_of_tripsAt htrips f.sorting)

/-- Of two parts of a patch, each can come first. -/
theorem IsPart.revised_comm (hq : p.IsPart q) (hr : p.IsPart r) (f : Filter) :
    r.revised rules d (q.revised rules d f) = q.revised rules d (r.revised rules d f) := by
  cases hq with
  | operator hv =>
    cases hr with
    | operator hw =>
      rw [hv, Option.some.injEq] at hw
      subst hw
      rfl
    | value => rfl
    | sorting => rfl
  | value hv =>
    cases hr with
    | operator => rfl
    | value hw =>
      rw [hv, Option.some.injEq] at hw
      subst hw
      rfl
    | sorting => rfl
  | sorting hv =>
    cases hr with
    | operator => rfl
    | value => rfl
    | sorting hw =>
      rw [hv, Option.some.injEq] at hw
      subst hw
      rfl

/-- **The parts of a patch make what the whole patch makes**, in whatever order. -/
theorem foldl_revised_parts {qs : List Patch} (h : qs.Perm p.parts) (f : Filter) :
    qs.foldl (fun f q => q.revised rules d f) f = p.revised rules d f := by
  have hcomm : ∀ q ∈ p.parts, ∀ r ∈ p.parts, ∀ f : Filter,
      r.revised rules d (q.revised rules d f) = q.revised rules d (r.revised rules d f) :=
    fun q hq r hr f => (isPart_of_mem hq).revised_comm (isPart_of_mem hr) f
  rw [← h.symm.foldl_eq' hcomm f]
  unfold parts revised
  cases p.operator <;> cases p.value <;> cases p.sorting <;> rfl

end Winnow.Patch

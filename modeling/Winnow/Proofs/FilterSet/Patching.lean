import Winnow.Catalog.Employees
import Winnow.Proofs.Filter.Entry
import Winnow.Proofs.FilterSet.Moving
import Winnow.Proofs.Json.ShortIntegers
import Winnow.Settings

/-!
# Patches taken apart

A patch of a filter asks for an operator, a value and a direction, each of which is taken or refused
by itself.  So its parts can be asked for one after the other, in any order.  Only one thing ties
them together: where one of them makes the patch fail, nothing is taken at all.

* `Patch.Revises` : what a patch is to make of a filter, part by part;
* `Patch.revises_revised` : that is what it makes;
* `FilterSet.Revises` : what it is to make of a set, which is nothing but this;
* `FilterSet.Trips` : the patch fails, at a value that cannot be told to be admitted or that is
  refused and cannot be noted;
* `FilterSet.edited_of_split`, `FilterSet.run_parts_split` : a set after a patch, and after its parts
  one by one;
* `FilterSet.run_parts` : the parts of a patch make of a set what the patch is to make of it, in any
  order;
* `FilterSet.edited_edited` : a patch does nothing the second time;
* `FilterSet.update_parts` : a patch that does not fail does what its parts do.
-/

namespace Winnow

/-! ## What is taken -/

namespace Patch

variable {α : Type} {rules : Rules} {d : Option Definition} {v : Value}

/-- An operator is taken by its word, if a definition allows it. -/
def TakesOperator (d : Option Definition) (v : Value) (choice : OperatorChoice) : Prop :=
  ∃ definition o, d = some definition ∧ o ∈ definition.operators ∧ v = .text o.word ∧
    choice = .known o

/-- A value is taken if the kind of a definition admits it; a tuple is taken as a list. -/
def TakesValue (rules : Rules) (d : Option Definition) (v new : Value) : Prop :=
  ∃ definition, d = some definition ∧ definition.kind.admits rules v = .ok true ∧
    new = v.normalize

/-- A direction is taken by its word, and nothing as the absence of one. -/
def TakesSorting (v : Value) (sorting : Option Sorting) : Prop :=
  v = .null ∧ sorting = none ∨
    ∃ direction : Direction, v = .text direction.word ∧ sorting = some (.by direction)

/-- What a part of a filter becomes: what is asked for if it is taken, and else what it was. -/
inductive Settles (Takes : Value → α → Prop) (asked : Option Value) (old : α) : α → Prop
  | taken {v : Value} {new : α} (hasked : asked = some v) (htakes : Takes v new) :
    Settles Takes asked old new
  | kept (h : ∀ v new, asked = some v → ¬ Takes v new) : Settles Takes asked old old

/-- What a patch is to make of a filter: each part is settled by itself. -/
structure Revises (rules : Rules) (d : Option Definition) (p : Patch) (f g : Filter) : Prop where
  id : g.id = f.id
  definitionId : g.definitionId = f.definitionId
  operator : Settles (TakesOperator d) p.operator f.operator g.operator
  value : Settles (TakesValue rules d) p.value f.value g.value
  sorting : Settles TakesSorting p.sorting f.sorting g.sorting

theorem acceptedOperator_iff {choice : OperatorChoice} :
    acceptedOperator d v = .ok (some choice) ↔ TakesOperator d v choice := by
  constructor
  · intro h
    obtain ⟨definition, o, hd, hallowed, hchoice⟩ := of_acceptedOperator h
    obtain ⟨hv, ho⟩ := Definition.allowed?_eq_some_iff.mp hallowed
    exact ⟨definition, o, hd, ho, hv, hchoice⟩
  · rintro ⟨definition, o, rfl, ho, rfl, rfl⟩
    rw [acceptedOperator, Option.bind_some, Definition.allowed?_word ho]
    rfl

theorem acceptedValue_iff {new : Value} :
    acceptedValue rules d v = .ok (some new) ↔ TakesValue rules d v new := by
  constructor
  · exact of_acceptedValue
  · rintro ⟨definition, rfl, hadmits, rfl⟩
    rw [acceptedValue, hadmits]
    rfl

theorem acceptedSorting_iff {sorting : Option Sorting} :
    acceptedSorting v = .ok (some sorting) ↔ TakesSorting v sorting := by
  constructor
  · intro h
    rcases of_acceptedSorting h with hnone | ⟨direction, hdirection, hsorting⟩
    · exact .inl hnone
    · exact .inr ⟨direction, Direction.ofValue_eq_ok_iff.mp hdirection, hsorting⟩
  · rintro (⟨rfl, rfl⟩ | ⟨direction, rfl, rfl⟩)
    · rfl
    · show Except.ok (Option.map _ (Direction.ofValue (.text direction.word)).toOption) = _
      rw [Direction.ofValue_eq_ok_iff.mpr rfl]
      rfl

theorem settles_settled {Takes : Value → α → Prop} {accepted : Value → Except Fault (Option α)}
    (h : ∀ {v new}, accepted v = .ok (some new) ↔ Takes v new) (asked : Option Value) (old : α) :
    Settles Takes asked old (settled accepted asked old) := by
  unfold settled
  cases hgranted : granted accepted asked with
  | some new =>
    obtain ⟨v, hasked, haccepted⟩ := granted_eq_some_iff.mp hgranted
    exact .taken hasked (h.mp haccepted)
  | none =>
    refine .kept fun v new hasked htakes => ?_
    rw [granted_eq_some_iff.mpr ⟨v, hasked, h.mpr htakes⟩] at hgranted
    cases hgranted

/-- **A patch settles each part of a filter by itself**, where it does not fail. -/
theorem revises_revised (rules : Rules) (d : Option Definition) (p : Patch) (f : Filter) :
    p.Revises rules d f (p.revised rules d f) :=
  ⟨rfl, rfl, settles_settled acceptedOperator_iff _ _, settles_settled acceptedValue_iff _ _,
    settles_settled acceptedSorting_iff _ _⟩

/-! ## Where a patch fails -/

/-- A patch asks only for values whose integers have texts. -/
def HasShortIntegers (p : Patch) : Prop :=
  ∀ v, p.operator = some v ∨ p.value = some v ∨ p.sorting = some v → v.HasShortIntegers

/-- A patch does not fail at a value with a text of which it can be told whether it is accepted. -/
theorem not_tripsAt {accepted : Value → Except Fault (Option α)}
    (hanswer : ∃ answer, accepted v = .ok answer) (hshort : v.HasShortIntegers) :
    ¬ TripsAt accepted v := by
  obtain ⟨answer, hanswer⟩ := hanswer
  obtain ⟨t, ht⟩ := hshort.literal_ok
  rintro (⟨fault, hfail⟩ | ⟨-, fault, hfail⟩)
  · rw [hanswer] at hfail
    cases hfail
  · rw [ht] at hfail
    cases hfail

/-- A patch fails only at an integer without a text, or at a value of which it cannot be told whether
it is admitted. -/
theorem not_trips {p : Patch} (hshort : p.HasShortIntegers)
    (hadmits : ∀ definition v, d = some definition → p.value = some v →
      ∃ admitted, definition.kind.admits rules v = .ok admitted) : ¬ p.Trips rules d := by
  rintro (⟨v, hv, htrips⟩ | ⟨v, hv, htrips⟩ | ⟨v, hv, htrips⟩)
  · exact not_tripsAt ⟨_, rfl⟩ (hshort v (.inl hv)) htrips
  · refine not_tripsAt ?_ (hshort v (.inr (.inl hv))) htrips
    cases d with
    | none => exact ⟨none, rfl⟩
    | some definition =>
      obtain ⟨admitted, hadmitted⟩ := hadmits definition v rfl hv
      rw [acceptedValue, hadmitted]
      exact ⟨_, rfl⟩
  · refine not_tripsAt ?_ (hshort v (.inr (.inr hv))) htrips
    unfold acceptedSorting
    split <;> exact ⟨_, rfl⟩

end Patch

/-! ## Sets -/

namespace FilterSet

/-- What a patch is to make of a set: the filter with an id is revised, and all else stays. -/
inductive Revises (rules : Rules) (id : Value) (p : Patch) (s : FilterSet) : FilterSet → Prop
  | absent (h : s.get? id = none) : Revises rules id p s s
  | present {before after : List Filter} {f g : Filter} (hsplit : s.filters = before ++ f :: after)
    (hid : Filter.hasId id f = true) (hfirst : ∀ k ∈ before, Filter.hasId id k = false)
    (hrevises : p.Revises rules (s.catalog.find? f.definitionId) f g) :
    Revises rules id p s { s with filters := before ++ g :: after }

/-- An update fails: its patch does, or there is no filter and the id cannot be noted. -/
def Trips (rules : Rules) (id : Value) (p : Patch) (s : FilterSet) : Prop :=
  match s.get? id with
  | some f => p.Trips rules (s.catalog.find? f.definitionId)
  | none => ∃ fault, id.plainText = .error fault

variable {rules : Rules} {s : FilterSet} {id : Value} {p q : Patch} {before after : List Filter}
  {f : Filter}

theorem get?_cases (s : FilterSet) (id : Value) :
    s.get? id = none ∨ ∃ before f after, s.filters = before ++ f :: after ∧
      Filter.hasId id f = true ∧ ∀ k ∈ before, Filter.hasId id k = false := by
  cases hget : s.get? id with
  | none => exact .inl rfl
  | some f =>
    obtain ⟨hid, before, after, hsplit, hfirst⟩ := List.find?_eq_some_iff_append.mp hget
    exact .inr ⟨before, f, after, hsplit, hid, fun k hk => by simpa using hfirst k hk⟩

theorem get?_of_split (hsplit : s.filters = before ++ f :: after)
    (hid : Filter.hasId id f = true) (hfirst : ∀ k ∈ before, Filter.hasId id k = false) :
    s.get? id = some f := by
  rw [get?, hsplit]
  exact find?_split hid hfirst

theorem update_of_absent (h : s.get? id = none) (p : Patch) :
    s.update rules id p = id.plainText.map fun _ => (none, s) := by
  unfold update
  rw [h]
  cases place? id s.filters <;> cases id.plainText <;> rfl

theorem update_of_split (hsplit : s.filters = before ++ f :: after)
    (hid : Filter.hasId id f = true) (hfirst : ∀ k ∈ before, Filter.hasId id k = false) (p : Patch) :
    s.update rules id p = (p.apply rules (s.catalog.find? f.definitionId) f).map fun g =>
      (some g, { s with filters := before ++ g :: after }) := by
  have hplace : place? id s.filters = some before.length := by
    rw [hsplit]
    exact place?_split hid hfirst
  have hset : ∀ g, s.filters.set before.length g = before ++ g :: after := by
    intro g
    rw [hsplit]
    simp
  unfold update
  simp only [hplace, get?_of_split hsplit hid hfirst, hset]
  cases p.apply rules (s.catalog.find? f.definitionId) f <;> rfl

theorem edited_of_update_ok {t : FilterSet} {updated : Option Filter}
    (h : s.update rules id p = .ok (updated, t)) : s.edited rules (.update id p) = t := by
  simp only [edited, perform, h, bind, Except.bind, pure, Except.pure]

theorem edited_of_update_error {fault : Fault} (h : s.update rules id p = .error fault) :
    s.edited rules (.update id p) = s := by
  simp only [edited, perform, h, bind, Except.bind]

theorem edited_of_absent (h : s.get? id = none) (p : Patch) :
    s.edited rules (.update id p) = s := by
  have hupdate : s.update rules id p = _ := update_of_absent h p
  cases htext : id.plainText with
  | ok t =>
    rw [htext] at hupdate
    exact edited_of_update_ok hupdate
  | error fault =>
    rw [htext] at hupdate
    exact edited_of_update_error hupdate

/-- **A set after a patch that does not fail**: the filter is revised where it stands. -/
theorem edited_of_split (hsplit : s.filters = before ++ f :: after)
    (hid : Filter.hasId id f = true) (hfirst : ∀ k ∈ before, Filter.hasId id k = false)
    (h : ¬ p.Trips rules (s.catalog.find? f.definitionId)) :
    s.edited rules (.update id p) =
      { s with filters := before ++ p.revised rules (s.catalog.find? f.definitionId) f :: after } := by
  have hupdate : s.update rules id p = _ := update_of_split hsplit hid hfirst p
  rw [Patch.apply_eq h] at hupdate
  exact edited_of_update_ok hupdate

/-- An update that fails gives nothing back. -/
theorem update_of_trips (h : s.Trips rules id p) : ∃ fault, s.update rules id p = .error fault := by
  rcases get?_cases s id with hget | ⟨before, f, after, hsplit, hid, hfirst⟩
  · rw [Trips, hget] at h
    obtain ⟨fault, hfail⟩ := h
    exact ⟨fault, by rw [update_of_absent hget, hfail]; rfl⟩
  · rw [Trips, get?_of_split hsplit hid hfirst] at h
    obtain ⟨fault, hfail⟩ := Patch.apply_of_trips h f
    exact ⟨fault, by rw [update_of_split hsplit hid hfirst, hfail]; rfl⟩

theorem edited_of_trips (h : s.Trips rules id p) : s.edited rules (.update id p) = s := by
  obtain ⟨fault, hfail⟩ := update_of_trips h
  exact edited_of_update_error hfail

/-- A part of a patch leaves a filter revised also where it fails, for then it asks for nothing
else. -/
theorem edited_part_of_split (hq : p.IsPart q) (hsplit : s.filters = before ++ f :: after)
    (hid : Filter.hasId id f = true) (hfirst : ∀ k ∈ before, Filter.hasId id k = false) :
    s.edited rules (.update id q) =
      { s with filters := before ++ q.revised rules (s.catalog.find? f.definitionId) f :: after } := by
  by_cases htrips : q.Trips rules (s.catalog.find? f.definitionId)
  · have hset : s.Trips rules id q := by rwa [Trips, get?_of_split hsplit hid hfirst]
    rw [edited_of_trips hset, hq.revised_of_trips htrips, ← hsplit]
  · exact edited_of_split hsplit hid hfirst htrips

/-- A set after some parts of a patch one by one. -/
theorem run_parts_split {qs : List Patch} (hqs : ∀ q ∈ qs, p.IsPart q)
    (hsplit : s.filters = before ++ f :: after) (hid : Filter.hasId id f = true)
    (hfirst : ∀ k ∈ before, Filter.hasId id k = false) :
    s.run rules (qs.map (.update id)) =
      { s with filters := before ++
        qs.foldl (fun g q => q.revised rules (s.catalog.find? f.definitionId) g) f :: after } := by
  induction qs generalizing s f with
  | nil =>
    rw [List.foldl_nil, ← hsplit]
    rfl
  | cons q qs ih =>
    have hstep : s.edited rules (.update id q) = _ :=
      edited_part_of_split (hqs q List.mem_cons_self) hsplit hid hfirst
    show (s.edited rules (.update id q)).run rules (qs.map (.update id)) = _
    rw [hstep]
    exact ih (f := q.revised rules (s.catalog.find? f.definitionId) f)
      (fun r hr => hqs r (List.mem_cons_of_mem q hr)) rfl hid

/-- A set after all parts of a patch, in whatever order. -/
theorem run_parts_of_split {qs : List Patch} (hqs : qs.Perm p.parts)
    (hsplit : s.filters = before ++ f :: after) (hid : Filter.hasId id f = true)
    (hfirst : ∀ k ∈ before, Filter.hasId id k = false) :
    s.run rules (qs.map (.update id)) =
      { s with filters := before ++ p.revised rules (s.catalog.find? f.definitionId) f :: after } := by
  rw [run_parts_split (p := p) (fun q hq => Patch.isPart_of_mem (hqs.subset hq)) hsplit hid hfirst,
    Patch.foldl_revised_parts hqs]

theorem run_parts_absent (h : s.get? id = none) (qs : List Patch) :
    s.run rules (qs.map (.update id)) = s := by
  induction qs with
  | nil => rfl
  | cons q qs ih =>
    show (s.edited rules (.update id q)).run rules (qs.map (.update id)) = s
    rw [edited_of_absent h, ih]

/-- The set that the parts of a patch make, one after the other. -/
def patched (rules : Rules) (s : FilterSet) (id : Value) (p : Patch) : FilterSet :=
  s.run rules (p.parts.map (.update id))

/-- **What the parts of a patch make of a set is what the patch is to make of it**, in whatever order
they are asked for. -/
theorem run_parts (rules : Rules) (s : FilterSet) (id : Value) (p : Patch) :
    s.Revises rules id p (s.patched rules id p) ∧
      ∀ qs : List Patch, qs.Perm p.parts →
        s.run rules (qs.map (.update id)) = s.patched rules id p := by
  rcases get?_cases s id with hget | ⟨before, f, after, hsplit, hid, hfirst⟩
  · have hkept (qs : List Patch) : s.run rules (qs.map (.update id)) = s := run_parts_absent hget qs
    rw [patched, hkept]
    exact ⟨.absent hget, fun qs _ => hkept qs⟩
  · have hrun (qs : List Patch) (hqs : qs.Perm p.parts) : s.run rules (qs.map (.update id)) = _ :=
      run_parts_of_split hqs hsplit hid hfirst
    rw [patched, hrun p.parts (.refl _)]
    exact ⟨.present hsplit hid hfirst (Patch.revises_revised rules _ p f), hrun⟩

/-- **An update that does not fail does what the parts of its patch do.** -/
theorem update_of_not_trips (h : ¬ s.Trips rules id p) :
    s.update rules id p = .ok ((s.patched rules id p).get? id, s.patched rules id p) := by
  rcases get?_cases s id with hget | ⟨before, f, after, hsplit, hid, hfirst⟩
  · rw [patched, run_parts_absent hget, update_of_absent hget, hget]
    cases htext : id.plainText with
    | ok t => rfl
    | error fault => exact absurd (by rw [Trips, hget]; exact ⟨fault, htext⟩) h
  · have hpatch : ¬ p.Trips rules (s.catalog.find? f.definitionId) := by
      rwa [Trips, get?_of_split hsplit hid hfirst] at h
    have hpatched : s.patched rules id p = _ := run_parts_of_split (.refl p.parts) hsplit hid hfirst
    rw [update_of_split hsplit hid hfirst, Patch.apply_eq hpatch, hpatched,
      get?_of_split rfl (by exact hid) hfirst]
    rfl

theorem edited_of_not_trips (h : ¬ s.Trips rules id p) :
    s.edited rules (.update id p) = s.patched rules id p :=
  edited_of_update_ok (update_of_not_trips h)

/-- **A patch does nothing the second time.** -/
theorem edited_edited (rules : Rules) (s : FilterSet) (id : Value) (p : Patch) :
    (s.edited rules (.update id p)).edited rules (.update id p) =
      s.edited rules (.update id p) := by
  by_cases htrips : s.Trips rules id p
  · rw [edited_of_trips htrips, edited_of_trips htrips]
  rcases get?_cases s id with hget | ⟨before, f, after, hsplit, hid, hfirst⟩
  · rw [edited_of_absent hget, edited_of_absent hget]
  · have hpatch : ¬ p.Trips rules (s.catalog.find? f.definitionId) := by
      rwa [Trips, get?_of_split hsplit hid hfirst] at htrips
    -- the filter is still found, and by the same definition
    rw [edited_of_split hsplit hid hfirst hpatch]
    have hagain := edited_of_split (f := p.revised rules (s.catalog.find? f.definitionId) f)
      (s := { s with filters :=
        before ++ p.revised rules (s.catalog.find? f.definitionId) f :: after }) rfl hid hfirst hpatch
    rw [hagain]
    exact congrArg (fun g => { s with filters := before ++ g :: after }) (Patch.revised_revised f)

/-- An update for an id that is a text, with values that have texts and of which it can be told
whether they are admitted, does not fail. -/
theorem not_trips {t : Text} (hid : id = .text t) (hshort : p.HasShortIntegers)
    (hadmits : ∀ f definition v, s.get? id = some f →
      s.catalog.find? f.definitionId = some definition → p.value = some v →
        ∃ admitted, definition.kind.admits rules v = .ok admitted) :
    ¬ s.Trips rules id p := by
  unfold Trips
  split
  · rename_i f hget
    exact Patch.not_trips hshort fun definition v hd hv => hadmits f definition v hget hd hv
  · rintro ⟨fault, hfail⟩
    rw [hid] at hfail
    cases hfail

/-- **The parts of a patch do together what the patch does, unless the patch fails.**  They settle
the operator, the value and the direction of one filter each by itself, and leave all else as it was.
The patch gives the same set exactly if it does not fail, or if its parts change nothing either. -/
theorem update_parts (rules : Rules) (s : FilterSet) (id : Value) (p : Patch) :
    s.Revises rules id p (s.patched rules id p) ∧
      (∀ qs : List Patch, qs.Perm p.parts →
        s.run rules (qs.map (.update id)) = s.patched rules id p) ∧
      (s.run rules [.update id p] = s.patched rules id p ↔
        (s.Trips rules id p → s.patched rules id p = s)) ∧
      (¬ s.Trips rules id p →
        s.update rules id p = .ok ((s.patched rules id p).get? id, s.patched rules id p)) ∧
      (s.Trips rules id p → ∃ fault, s.update rules id p = .error fault) ∧
      s.run rules [.update id p, .update id p] = s.run rules [.update id p] := by
  obtain ⟨hrevises, hparts⟩ := run_parts rules s id p
  refine ⟨hrevises, hparts, ⟨fun h htrips => ?_, fun h => ?_⟩, update_of_not_trips, update_of_trips,
    edited_edited rules s id p⟩
  · rw [← h]
    exact edited_of_trips htrips
  · by_cases htrips : s.Trips rules id p
    · rw [h htrips]
      exact edited_of_trips htrips
    · exact edited_of_not_trips htrips

/-- A filter on the first day of work. -/
def hiredLately : FilterSet :=
  .ofFilters Employees.catalog ⟨[], 0⟩ "2024-03-01"
    [⟨"a", "startDate", .known .after, .text "2024-01-01", none⟩]

/-- Another operator, and a time of day with far too many digits. -/
def overlongPatch : Patch :=
  ⟨some (.text "before"), some (.text "10:11111111111111111111111111111"), none⟩

/-- An operator that a date does not have, another day, and a direction. -/
def mixedPatch : Patch :=
  ⟨some (.text "contains"), some (.text "2024-02-01"), some (.text "desc")⟩

theorem update_parts_mixed :
    ¬ hiredLately.Trips ⟨default, Settings.bundled.limits⟩ (.text "a") mixedPatch ∧
      hiredLately.run ⟨default, Settings.bundled.limits⟩ [.update (.text "a") mixedPatch] =
        hiredLately.run ⟨default, Settings.bundled.limits⟩
          (mixedPatch.parts.reverse.map (.update (.text "a"))) := by
  have hsure : ¬ hiredLately.Trips ⟨default, Settings.bundled.limits⟩ (.text "a") mixedPatch := by
    refine not_trips rfl (fun v hv => ?_) (fun f definition v hget hd hv => ?_)
    · rcases hv with hv | hv | hv <;> cases hv <;> exact .text _
    · cases hget
      cases hd
      cases hv
      exact ⟨true, by decide +kernel⟩
  obtain ⟨-, hparts, hwhole, -⟩ := update_parts ⟨default, Settings.bundled.limits⟩ hiredLately
    (.text "a") mixedPatch
  exact ⟨hsure, (hwhole.mpr fun h => absurd h hsure).trans (hparts _ (List.reverse_perm _)).symm⟩

/-- **A part of a patch that is refused can take the others with it.** -/
theorem not_update_parts :
    ¬ ∀ (rules : Rules) (s : FilterSet) (id : Value) (p : Patch) (qs : List Patch),
      qs.Perm p.parts → s.run rules (qs.map (.update id)) = s.run rules [.update id p] := by
  intro h
  have hsame := congrArg
    (fun s : FilterSet => s.filters.map fun f => f.operator matches .known .before)
    (h ⟨default, Settings.bundled.limits⟩ hiredLately (.text "a") overlongPatch _ (.refl _))
  revert hsame
  decide +kernel

end FilterSet

end Winnow

import Winnow.Proofs.Composer.Dropping
import Winnow.Proofs.FilterSet.Invariant

/-!
# Runs of a composer

A composer is driven by events: those of the drag protocol, direct changes of the set, and the two
that write to the store.  Settings and clock may differ from event to event.  What an event does to
the set is one edit of it, or none.

* `ComposerEvent`, `Composer.perform`, `Composer.run` : one event, and a list of them in order;
* `Composer.edit?`, `Composer.edit?_cases` : the edit that an event asks for;
* `Composer.perform_set`, `Composer.perform_set_preserves` : an event makes its edit, and does
  nothing else to the set;
* `Composer.run_preserves`, `Composer.run_preserves_around` : what every event keeps, every run keeps;
* `Composer.run_catalog`, `Composer.run_idsDistinct` : the catalog stays, and so do distinct ids;
* `Composer.onStore_start` : a composer is opened without filters or with those of a blob.
-/

namespace Winnow

/-- An event of a composer, with the values that it is given. -/
inductive ComposerEvent where
  | drag (e : DragEvent)
  | update (id : Value) (changes : Value.Entries)
  | remove (id : Value)
  | clear
  | apply
  | reset

/-- The bundled settings at the first moment of the calendar. -/
def Surroundings.bundled : Surroundings :=
  ⟨⟨default, Settings.bundled.limits⟩, .text ",", ⟨default, TimeOfDay.midnight, some 0⟩⟩

namespace Composer

/-- A composer on a day, which is the one that new dates start with. -/
def onDay (c : Composer) (day : Date) : Composer :=
  { c with set := { c.set with today := day.isoText } }

/-- The composer after an event, also after one that fails. -/
def performOn (around : Surroundings) (c : Composer) : ComposerEvent → Composer
  | .drag e => c.handle e
  | .update id changes =>
    match Patch.ofEntries changes >>= c.update around.rules id with
    | .ok (_, c) => c
    | .error _ => c
  | .remove id => (c.remove id).2
  | .clear => c.clear
  | .apply => (c.apply around).2
  | .reset => c.reset.2

/-- The composer after an event on the day of the event. -/
def perform (around : Surroundings) (c : Composer) (e : ComposerEvent) : Composer :=
  (c.onDay around.rules.today).performOn around e

/-- The composer after a list of events, each in its surroundings. -/
def run (c : Composer) (events : List (Surroundings × ComposerEvent)) : Composer :=
  events.foldl (fun c e => c.perform e.1 e.2) c

variable {c : Composer} {around : Surroundings}

@[simp] theorem onDay_store (c : Composer) (day : Date) : (c.onDay day).store = c.store := rfl

@[simp] theorem run_nil (c : Composer) : c.run [] = c := rfl

@[simp] theorem run_cons (c : Composer) (e : Surroundings × ComposerEvent)
    (events : List (Surroundings × ComposerEvent)) :
    c.run (e :: events) = (c.perform e.1 e.2).run events := rfl

theorem run_concat (c : Composer) (events : List (Surroundings × ComposerEvent))
    (e : Surroundings × ComposerEvent) :
    c.run (events ++ [e]) = (c.run events).perform e.1 e.2 := by
  simp [run]

/-! ## The edit of an event -/

/-- The edit of a set that the end of a drag over a target asks for, if it asks for one. -/
def dropEdit? (set : FilterSet) (source : Option DragSource) (target : Option DropTarget)
    (id : Value) : Option Edit :=
  match source, target with
  | some ⟨.available, definition⟩, some .surface => some (.compose set.today definition)
  | some ⟨.active, moved⟩, some .filter => if id.isVoid then none else some (.reorder moved id)
  | _, _ => none

/-- The edit of the set that an event asks for, if it asks for one. -/
def edit? (c : Composer) : ComposerEvent → Option Edit
  | .drag (.drop kind id) =>
    match c.gesture, DropTarget.ofValue kind with
    | .dragging source, .ok target => dropEdit? c.set source target id
    | _, _ => none
  | .drag (.start _ _) | .drag .cancel | .apply => none
  | .update id changes => (Patch.ofEntries changes).toOption.map (.update id)
  | .remove id => some (.remove id)
  | .clear | .reset => some .clear

/-- The set after an edit, if there is one. -/
def editedBy (around : Surroundings) (s : FilterSet) (e : Option Edit) : FilterSet :=
  e.elim s (s.edited around.rules)

theorem apply_set (c : Composer) (around : Surroundings) : (c.apply around).2.set = c.set := by
  simp only [apply, persist]
  split <;> rfl

theorem reset_set (c : Composer) : c.reset.2.set = c.set.clear := by
  simp only [reset, persist]
  split <;> rfl

/-- What the end of a drag makes of a set is the edit that it asks for. -/
theorem dropOn_set (around : Surroundings) (set : FilterSet) (source : Option DragSource)
    (target : Option DropTarget) (id : Value) :
    (match dropOn set source target id with
      | .ok (_, s) => s
      | .error _ => set) = editedBy around set (dropEdit? set source target id) := by
  match source, target with
  | some ⟨.available, definition⟩, some .surface =>
    simp only [dropOn, dropEdit?, editedBy, Option.elim, FilterSet.edited, FilterSet.perform]
    cases set.compose definition <;> rfl
  | some ⟨.active, moved⟩, some .filter =>
    simp only [dropOn, dropEdit?]
    cases id.isVoid <;> rfl
  | none, _ | some ⟨.available, _⟩, none | some ⟨.active, _⟩, none
  | some ⟨.available, _⟩, some .filter | some ⟨.active, _⟩, some .surface => rfl

theorem drop_set (around : Surroundings) (c : Composer) (kind id : Value) :
    (c.drop kind id).2.set = editedBy around c.set (c.edit? (.drag (.drop kind id))) := by
  cases hgesture : c.gesture with
  | idle =>
    rw [drop_idle hgesture]
    simp [edit?, hgesture, editedBy]
  | dragging source =>
    cases hkind : DropTarget.ofValue kind with
    | error fault => simp [drop, edit?, hgesture, hkind, editedBy, cancel]
    | ok target =>
      rw [drop_dragging hgesture hkind]
      simp only [edit?, hgesture, hkind, ← dropOn_set around]
      split <;> simp [*, cancel]

theorem update_set (around : Surroundings) (c : Composer) (id : Value) (p : Patch) :
    (match c.update around.rules id p with
      | .ok (_, c) => c
      | .error _ => c).set = c.set.edited around.rules (.update id p) := by
  cases h : c.set.update around.rules id p <;>
    simp [update, FilterSet.edited, FilterSet.perform, h, bind, Except.bind, pure, Except.pure]

/-- **An event makes its edit, and does nothing else to the set.** -/
theorem performOn_set (around : Surroundings) (c : Composer) (e : ComposerEvent) :
    (c.performOn around e).set = editedBy around c.set (c.edit? e) := by
  cases e with
  | drag e =>
    cases e with
    | start kind id => rfl
    | drop kind id => exact drop_set around c kind id
    | cancel => rfl
  | update id changes =>
    simp only [performOn, edit?]
    cases Patch.ofEntries changes with
    | error fault => rfl
    | ok p => exact update_set around c id p
  | remove id => rfl
  | clear => rfl
  | apply => exact apply_set c around
  | reset => exact reset_set c

theorem perform_set (around : Surroundings) (c : Composer) (e : ComposerEvent) :
    (c.perform around e).set = editedBy around (c.onDay around.rules.today).set
      ((c.onDay around.rules.today).edit? e) :=
  performOn_set around _ e

theorem dropEdit?_cases {set : FilterSet} {source : Option DragSource}
    {target : Option DropTarget} {id : Value} {edit : Edit}
    (h : dropEdit? set source target id = some edit) :
    (∃ definition, edit = .compose set.today definition) ∨
      ∃ moved, edit = .reorder moved id := by
  unfold dropEdit? at h
  split at h
  · cases h
    exact .inl ⟨_, rfl⟩
  · split at h
    · cases h
    · cases h
      exact .inr ⟨_, rfl⟩
  · cases h

/-- **The edits that events ask for**: a new filter of the day or a move, from the end of a drag, a
patch of the changes that an update brings, and the removal of one filter or of all. -/
theorem edit?_cases {e : ComposerEvent} {edit : Edit} (h : c.edit? e = some edit) :
    (∃ definition, edit = .compose c.set.today definition) ∨
    (∃ moved target, edit = .reorder moved target) ∨
    (∃ id changes p, e = .update id changes ∧ Patch.ofEntries changes = .ok p ∧
      edit = .update id p) ∨
    (∃ id, edit = .remove id) ∨ edit = .clear := by
  cases e with
  | drag e =>
    cases e with
    | drop kind id =>
      simp only [edit?] at h
      split at h
      · rcases dropEdit?_cases h with hcompose | ⟨moved, rfl⟩
        · exact .inl hcompose
        · exact .inr (.inl ⟨moved, id, rfl⟩)
      · cases h
    | start kind id | cancel => cases h
  | update id changes =>
    cases hpatch : Patch.ofEntries changes with
    | error fault => simp [edit?, hpatch, Except.toOption] at h
    | ok p =>
      obtain rfl : Edit.update id p = edit := by simpa [edit?, hpatch, Except.toOption] using h
      exact .inr (.inr (.inl ⟨id, changes, p, rfl, hpatch, rfl⟩))
  | remove id =>
    cases h
    exact .inr (.inr (.inr (.inl ⟨id, rfl⟩)))
  | clear | reset =>
    cases h
    exact .inr (.inr (.inr (.inr rfl)))
  | apply => cases h

/-- A filter that an event composes starts with the day of the event. -/
theorem edit?_isDated {e : ComposerEvent} {edit : Edit} {day : Date}
    (h : (c.onDay day).edit? e = some edit) : edit.IsDated := by
  rcases edit?_cases h with ⟨_, rfl⟩ | ⟨_, _, rfl⟩ | ⟨_, _, _, _, _, rfl⟩ | ⟨_, rfl⟩ | rfl
  · exact ⟨day, rfl⟩
  all_goals trivial

/-! ## Runs -/

/-- What every event keeps in surroundings that fit it, every run of such events keeps. -/
theorem run_preserves_around {P : Composer → Prop} {Q : Surroundings → ComposerEvent → Prop}
    (hevent : ∀ (around : Surroundings) (c : Composer) (e : ComposerEvent),
      Q around e → P c → P (c.perform around e))
    (hc : P c) {events : List (Surroundings × ComposerEvent)}
    (hevents : ∀ e ∈ events, Q e.1 e.2) : P (c.run events) := by
  induction events generalizing c with
  | nil => exact hc
  | cons e events ih =>
    exact ih (hevent e.1 c e.2 (hevents e List.mem_cons_self) hc)
      fun e' he' => hevents e' (List.mem_cons_of_mem e he')

/-- What every event of a kind keeps, every run of such events keeps. -/
theorem run_preserves {P : Composer → Prop} {Q : ComposerEvent → Prop}
    (hevent : ∀ (around : Surroundings) (c : Composer) (e : ComposerEvent),
      Q e → P c → P (c.perform around e))
    (hc : P c) {events : List (Surroundings × ComposerEvent)} (hevents : ∀ e ∈ events, Q e.2) :
    P (c.run events) :=
  run_preserves_around (Q := fun _ e => Q e) hevent hc hevents

/-- What a day and the edit of an event keep of a set, the event keeps. -/
theorem perform_set_preserves {P : FilterSet → Prop} {e : ComposerEvent}
    (hday : P (c.onDay around.rules.today).set)
    (hedit : ∀ edit, (c.onDay around.rules.today).edit? e = some edit →
      P ((c.onDay around.rules.today).set.edited around.rules edit)) :
    P (c.perform around e).set := by
  rw [perform_set]
  cases h : (c.onDay around.rules.today).edit? e with
  | none => exact hday
  | some edit => exact hedit edit h

theorem perform_catalog (around : Surroundings) (c : Composer) (e : ComposerEvent) :
    (c.perform around e).set.catalog = c.set.catalog :=
  perform_set_preserves (P := fun s => s.catalog = c.set.catalog) rfl
    fun edit _ => FilterSet.edited_catalog around.rules _ edit

theorem run_catalog (c : Composer) (events : List (Surroundings × ComposerEvent)) :
    (c.run events).set.catalog = c.set.catalog :=
  run_preserves (P := fun d => d.set.catalog = c.set.catalog) (Q := fun _ => True)
    (fun around d e _ hd => (perform_catalog around d e).trans hd) rfl fun _ _ => trivial

theorem perform_idsDistinct (around : Surroundings) (e : ComposerEvent)
    (hc : c.set.IdsDistinct) : (c.perform around e).set.IdsDistinct := by
  have hday : (c.onDay around.rules.today).set.IdsDistinct := ⟨hc.distinct, hc.issued⟩
  exact perform_set_preserves hday fun edit _ =>
    FilterSet.edited_idsDistinct around.rules edit hday

/-- Ids stay distinct in every run. -/
theorem run_idsDistinct (hc : c.set.IdsDistinct) (events : List (Surroundings × ComposerEvent)) :
    (c.run events).set.IdsDistinct :=
  run_preserves (P := fun d => d.set.IdsDistinct) (Q := fun _ => True)
    (fun around _ e _ hd => perform_idsDistinct around e hd) hc fun _ _ => trivial

/-! ## Opening -/

theorem hydrate_start {catalog : Catalog} {rules : Rules} {tokens : Tokens}
    {loaded : Except Fault (Option Blob)} {s : FilterSet}
    (h : FilterSet.hydrate catalog rules tokens loaded = .ok s) :
    FilterSet.Start catalog rules s := by
  have hempty : FilterSet.Start catalog rules (.empty catalog rules tokens) :=
    .empty tokens rules.today.isoText
  simp only [FilterSet.hydrate] at h
  split at h
  · rename_i u hread
    cases h
    split at hread
    · cases hread
    · cases hread
      exact hempty
    · split at hread
      · cases hread
        exact hempty
      · exact .stored hread
  · split at h
    · cases h
      exact hempty
    · cases h

/-- A composer is opened without filters, or with those of a blob. -/
theorem onStore_start {catalog : Catalog} {rules : Rules} {tokens : Tokens} {store : MemoryStore}
    (h : onStore catalog rules tokens store = .ok c) : FilterSet.Start catalog rules c.set := by
  obtain ⟨set, hset, h⟩ := Outcome.of_bind_ok h
  cases h
  exact hydrate_start hset

/-- The definition of salaries is dragged to the surface. -/
def dropSalary : List (Surroundings × ComposerEvent) :=
  [(.bundled, .drag (.start (.text SourceKind.available.word) (.text "salary"))),
    (.bundled, .drag (.drop (.text DropTarget.surface.word) .null))]

end Composer

end Winnow

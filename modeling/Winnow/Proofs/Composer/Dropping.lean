import Winnow.Proofs.Composer.Dragging
import Winnow.Proofs.FilterSet.Editing

/-!
# What a drop does

A drop ends the drag that is going on, and looks at where the drag began and at what it ends over.
A definition that ends over the surface becomes a filter, and a filter that ends over another one is
moved; in every other case the filters stay as they are.

* `DropTarget.ofValue_ofText?` : the target that a word names;
* `Composer.Composes`, `Composer.Moves` : the drops that ask for a filter or for a move;
* `Composer.drop_composes`, `Composer.drop_unknown`, `Composer.drop_moves`,
  `Composer.drop_otherwise` : the filters after each kind of drop;
* `Composer.drop_spec` : all that a drop, a start and a cancel do;
* `Composer.after_store` : no run of the drag protocol touches the store.
-/

namespace Winnow

theorem DropTarget.ofValue_word (target : DropTarget) :
    ofValue (.ofText? (some target.word)) = .ok (some target) := by
  cases target <;> rfl

/-- The target that a word names: each target by its own word, and none by any other. -/
theorem DropTarget.ofValue_ofText? (kind : Option Text) : ∃ target,
    ofValue (.ofText? kind) = .ok target ∧
      (target = some .surface ↔ kind = some surface.word) ∧
      (target = some .filter ↔ kind = some filter.word) := by
  have hne : surface.word ≠ filter.word := by decide
  cases kind with
  | none => exact ⟨none, rfl, by simp, by simp⟩
  | some t =>
    have hfound : ofValue (.ofText? (some t)) =
        .ok ([surface, filter].find? fun target => t == target.word) := by
      simp [ofValue, Value.ofText?, Value.isHashable, Value.equals]
    refine ⟨_, hfound, ?_⟩
    by_cases hsurface : t = surface.word
    · simp [hsurface, hne]
    · by_cases hfilter : t = filter.word
      · simp [hfilter, hne.symm]
      · simp [hsurface, hfilter]

namespace Composer

/-- A drag of a definition that ends over the surface. -/
def Composes (source : Option DragSource) (kind : Option Text) (definition : Value) : Prop :=
  source = some ⟨.available, definition⟩ ∧ kind = some DropTarget.surface.word

/-- A drag of a filter that ends over a filter, whose id is not empty. -/
def Moves (source : Option DragSource) (kind id : Option Text) (moved : Value) (target : Text) :
    Prop :=
  source = some ⟨.active, moved⟩ ∧ kind = some DropTarget.filter.word ∧ id = some target ∧
    target ≠ []

variable {c : Composer} {source : Option DragSource} {kind id : Option Text}

/-! ## One drop -/

theorem drop_idle (h : c.gesture = .idle) (kind id : Value) : c.drop kind id = (.ok none, c) := by
  simp only [drop, h]

/-- A drop over a target ends the drag, and keeps what it makes of the set unless that fails. -/
theorem drop_dragging {kind id : Value} {target : Option DropTarget}
    (h : c.gesture = .dragging source) (hkind : DropTarget.ofValue kind = .ok target) :
    c.drop kind id =
      match dropOn c.set source target id with
      | .error fault => (.error fault, c.cancel)
      | .ok (f, set) => (.ok f, { c.cancel with set := set }) := by
  cases heffect : dropOn c.set source target id with
  | error fault => simp only [drop, h, hkind, heffect]
  | ok made => simp only [drop, h, hkind, heffect]

/-- **A definition that ends over the surface becomes one new filter**, behind all others. -/
theorem drop_composes {definition : Value} {d : Definition} (h : c.gesture = .dragging source)
    (hcomposes : Composes source kind definition)
    (hlookup : c.set.catalog.lookup definition = .ok (some d)) :
    ∃ f, f.id ∉ c.set.issued ∧
      f = ⟨f.id, d.id, .known d.defaultOperator, d.kind.defaultValue c.set.today, none⟩ ∧
      (c.drop (.ofText? kind) (.ofText? id)).1 = .ok (some f) ∧
      (c.drop (.ofText? kind) (.ofText? id)).2.set.filters = c.set.filters ++ [f] := by
  obtain ⟨rfl, rfl⟩ := hcomposes
  refine ⟨(c.set.newFilter d).1, Tokens.fresh_not_mem _ _ _, rfl, ?_⟩
  rw [drop_dragging h (DropTarget.ofValue_word .surface)]
  simp [dropOn, FilterSet.compose, hlookup, bind, Except.bind, pure, Except.pure]

/-- A definition that the catalog lacks is reported, and the filters stay as they are. -/
theorem drop_unknown {definition : Value} (h : c.gesture = .dragging source)
    (hcomposes : Composes source kind definition)
    (hlookup : ∀ d, c.set.catalog.lookup definition ≠ .ok (some d)) :
    (∃ fault, (c.drop (.ofText? kind) (.ofText? id)).1 = .error fault ∧
      ∀ t, definition = .text t → fault = .unknownDefinition t) ∧
    (c.drop (.ofText? kind) (.ofText? id)).2.set = c.set := by
  obtain ⟨rfl, rfl⟩ := hcomposes
  have hcompose : ∃ fault, c.set.compose definition = .error fault ∧
      ∀ t, definition = .text t → fault = .unknownDefinition t := by
    cases hfound : c.set.catalog.lookup definition with
    | error fault =>
      refine ⟨fault, by simp [FilterSet.compose, hfound, bind, Except.bind], ?_⟩
      rintro t rfl
      cases hfound
    | ok found =>
      cases found with
      | some d => exact absurd hfound (hlookup d)
      | none =>
        cases hid : definition.plainText with
        | error fault =>
          refine ⟨fault, by simp [FilterSet.compose, hfound, hid, bind, Except.bind], ?_⟩
          rintro t rfl
          cases hid
        | ok name =>
          refine ⟨.unknownDefinition name, by
            simp [FilterSet.compose, hfound, hid, bind, Except.bind], ?_⟩
          rintro t rfl
          cases hid
          rfl
  obtain ⟨fault, hfail, hname⟩ := hcompose
  rw [drop_dragging h (DropTarget.ofValue_word .surface)]
  have heffect : dropOn c.set (some ⟨.available, definition⟩) (some .surface) (.ofText? id) =
      .error fault := by simp [dropOn, hfail, bind, Except.bind]
  rw [heffect]
  exact ⟨⟨fault, rfl, hname⟩, rfl⟩

/-- **A filter that ends over another one is moved right before it.** -/
theorem drop_moves {moved : Value} {target : Text} (h : c.gesture = .dragging source)
    (hmoves : Moves source kind id moved target) :
    (c.drop (.ofText? kind) (.ofText? id)).1 = .ok none ∧
      (c.drop (.ofText? kind) (.ofText? id)).2.set = (c.set.reorder moved (.text target)).2 := by
  obtain ⟨rfl, rfl, rfl, hne⟩ := hmoves
  rw [drop_dragging h (DropTarget.ofValue_word .filter)]
  have hfull : (Value.text target).isVoid = false := by simpa [Value.isVoid] using hne
  simp [dropOn, Value.ofText?, hfull]

/-- A drop that asks for neither leaves the filters as they are. -/
theorem drop_otherwise (h : c.gesture = .dragging source)
    (hcomposes : ∀ definition, ¬ Composes source kind definition)
    (hmoves : ∀ moved target, ¬ Moves source kind id moved target) :
    (c.drop (.ofText? kind) (.ofText? id)).1 = .ok none ∧
      (c.drop (.ofText? kind) (.ofText? id)).2.set = c.set := by
  obtain ⟨target, hkind, hsurface, hfilter⟩ := DropTarget.ofValue_ofText? kind
  rw [drop_dragging h hkind]
  have heffect : dropOn c.set source target (.ofText? id) = .ok (none, c.set) := by
    unfold dropOn
    split
    · rename_i definition
      exact absurd ⟨rfl, hsurface.mp rfl⟩ (hcomposes definition)
    · rename_i moved
      cases id with
      | none => rfl
      | some t =>
        by_cases hempty : t = []
        · simp [hempty, Value.ofText?, Value.isVoid]
        · exact absurd ⟨rfl, hfilter.mp rfl, rfl, hempty⟩ (hmoves moved t)
    · rfl
  rw [heffect]
  exact ⟨rfl, rfl⟩

/-! ## What stays -/

theorem drop_store (c : Composer) (kind id : Value) : (c.drop kind id).2.store = c.store := by
  unfold drop
  split
  · rfl
  · split
    · rfl
    · split <;> rfl

theorem handle_store (c : Composer) (e : DragEvent) : (c.handle e).store = c.store := by
  cases e with
  | start kind id => rfl
  | drop kind id => exact drop_store c kind id
  | cancel => rfl

/-- No run of the drag protocol touches the store. -/
theorem after_store (c : Composer) (events : List DragEvent) : (c.after events).store = c.store := by
  induction events generalizing c with
  | nil => rfl
  | cons e events ih => exact (ih (c.handle e)).trans (handle_store c e)

/-- **What a drop does.**  Without a drag it does nothing.  It ends a drag, also where it fails: a
definition over the surface becomes one new filter or is reported as unknown, a filter over another
one is moved right before it, and in every other case the filters stay as they are.  A start and a
cancel leave the filters alone, and none of the three touches the store. -/
theorem drop_spec (c : Composer) (kind id : Option Text) :
    (c.gesture = .idle → c.drop (.ofText? kind) (.ofText? id) = (.ok none, c)) ∧
    (∀ source, c.gesture = .dragging source →
      (c.drop (.ofText? kind) (.ofText? id)).2.gesture = .idle ∧
      (∀ definition d, Composes source kind definition →
        c.set.catalog.lookup definition = .ok (some d) →
        ∃ f, f.id ∉ c.set.issued ∧
          f = ⟨f.id, d.id, .known d.defaultOperator, d.kind.defaultValue c.set.today, none⟩ ∧
          (c.drop (.ofText? kind) (.ofText? id)).1 = .ok (some f) ∧
          (c.drop (.ofText? kind) (.ofText? id)).2.set.filters = c.set.filters ++ [f]) ∧
      (∀ definition, Composes source kind definition →
        (∀ d, c.set.catalog.lookup definition ≠ .ok (some d)) →
        (∃ fault, (c.drop (.ofText? kind) (.ofText? id)).1 = .error fault ∧
          ∀ t, definition = .text t → fault = .unknownDefinition t) ∧
        (c.drop (.ofText? kind) (.ofText? id)).2.set = c.set) ∧
      (∀ moved target, Moves source kind id moved target →
        (c.drop (.ofText? kind) (.ofText? id)).1 = .ok none ∧
        (c.drop (.ofText? kind) (.ofText? id)).2.set = (c.set.reorder moved (.text target)).2) ∧
      ((∀ definition, ¬ Composes source kind definition) →
        (∀ moved target, ¬ Moves source kind id moved target) →
        (c.drop (.ofText? kind) (.ofText? id)).1 = .ok none ∧
        (c.drop (.ofText? kind) (.ofText? id)).2.set = c.set)) ∧
    (∀ kind id : Value, (c.dragStart kind id).2.set = c.set) ∧ c.cancel.set = c.set ∧
    ∀ e : DragEvent, (c.handle e).store = c.store := by
  refine ⟨fun h => drop_idle h _ _, fun source h => ?_, fun _ _ => rfl, rfl, handle_store c⟩
  refine ⟨drop_gesture c _ _, ?_, ?_, ?_, ?_⟩
  · intro definition d hcomposes hlookup
    exact drop_composes h hcomposes hlookup
  · intro definition hcomposes hlookup
    exact drop_unknown h hcomposes hlookup
  · intro moved target hmoves
    exact drop_moves h hmoves
  · exact drop_otherwise h

/-- A definition of the directory that ends over the surface. -/
theorem drop_spec_salary :
    ∃ f, ((newDirectory.after [.start (.text "filter") (.text "salary")]).drop
        (.text DropTarget.surface.word) .null).1 = .ok (some f) ∧
      ((newDirectory.after [.start (.text "filter") (.text "salary")]).drop
        (.text DropTarget.surface.word) .null).2.set.filters = [f] := by
  have hdrop := drop_spec (newDirectory.after [.start (.text "filter") (.text "salary")])
    (some DropTarget.surface.word) none
  obtain ⟨-, hcomposes, -⟩ := hdrop.2.1 (some ⟨.available, .text "salary"⟩) rfl
  obtain ⟨f, -, -, houtcome, hfilters⟩ := hcomposes (.text "salary") _ ⟨rfl, rfl⟩ rfl
  exact ⟨f, houtcome, hfilters⟩

end Composer

end Winnow

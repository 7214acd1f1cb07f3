import Mathlib.Data.List.DropRight
import Winnow.Catalog.Employees
import Winnow.Composer
import Winnow.Proofs.Outcome
import Winnow.Settings

/-!
# The drag protocol

A drag is begun, and ended by a drop or given up.  A start from an unknown kind of source is
refused, but a composer that was idle counts as dragging from then on, without a source.

* `DragEvent`, `Composer.handle`, `Composer.after` : one event, and a list of them in order;
* `Gesture.Tracks` : a drag is going on exactly if its source is that of the last accepted start;
* `Composer.handle_gesture` : all that an event can do to the gesture;
* `Composer.after_gesture` : the gesture tells the starts since the last drag was ended;
* `Composer.onStore_after_tracks_iff` : the gesture tracks the starts unless all of these were
  refused.
-/

namespace Winnow

/-- An event of the drag protocol, with the values that it is given. -/
inductive DragEvent where
  | start (kind id : Value)
  | drop (kind id : Value)
  | cancel

namespace DragEvent

/-- Whether an event begins a drag, or tries to. -/
def isStart : DragEvent → Bool
  | .start _ _ => true
  | .drop _ _ | .cancel => false

/-- The source that an event begins a drag from, unless it is refused. -/
def source? : DragEvent → Option DragSource
  | .start kind id =>
    match SourceKind.ofValue kind with
    | .ok k => some ⟨k, id⟩
    | .error _ => none
  | .drop _ _ | .cancel => none

/-- The source of the last accepted start. -/
def lastSource (events : List DragEvent) : Option DragSource := (events.filterMap source?).getLast?

/-- The starts since the last event that ends a drag. -/
def sinceEnd (events : List DragEvent) : List DragEvent := events.rtakeWhile isStart

theorem lastSource_append (before after : List DragEvent) :
    lastSource (before ++ after) = (lastSource after).or (lastSource before) := by
  unfold lastSource
  rw [List.filterMap_append, List.getLast?_append]

theorem lastSource_singleton (e : DragEvent) : lastSource [e] = e.source? := by
  unfold lastSource
  cases h : e.source? with
  | none => simp [h]
  | some source => simp [h]

theorem lastSource_ne_none_iff {events : List DragEvent} :
    lastSource events ≠ none ↔ ∃ e ∈ events, e.source? ≠ none := by
  unfold lastSource
  rw [ne_eq, List.getLast?_eq_none_iff, List.filterMap_eq_nil_iff]
  push Not
  rfl

end DragEvent

namespace Gesture

/-- Whether a drag is going on. -/
def IsDragging (g : Gesture) : Prop := ∃ source, g = .dragging source

/-- A drag is going on exactly if the source is that of the last accepted start. -/
def Tracks (g : Gesture) (events : List DragEvent) : Prop :=
  g.IsDragging ↔ ∃ source, DragEvent.lastSource events = some source ∧ g.source? = some source

/-- The gesture that some starts lead to. -/
def ofStarts : List DragEvent → Gesture
  | [] => .idle
  | e :: es => .dragging (DragEvent.lastSource (e :: es))

theorem not_isDragging_idle : ¬ IsDragging .idle := nofun

theorem isDragging_dragging (source : Option DragSource) : IsDragging (.dragging source) :=
  ⟨source, rfl⟩

theorem ofStarts_of_ne_nil {starts : List DragEvent} (h : starts ≠ []) :
    ofStarts starts = .dragging (DragEvent.lastSource starts) := by
  cases starts with
  | nil => exact absurd rfl h
  | cons e es => rfl

@[simp] theorem source?_ofStarts (starts : List DragEvent) :
    (ofStarts starts).source? = DragEvent.lastSource starts := by
  cases starts with
  | nil => rfl
  | cons e es => rfl

end Gesture

namespace Composer

open DragEvent

/-- The composer after an event, also after one that fails. -/
def handle (c : Composer) : DragEvent → Composer
  | .start kind id => (c.dragStart kind id).2
  | .drop kind id => (c.drop kind id).2
  | .cancel => c.cancel

/-- The composer after a list of events. -/
def after (c : Composer) (events : List DragEvent) : Composer := events.foldl handle c

variable {c : Composer}

/-! ## One event -/

theorem drop_gesture (c : Composer) (kind id : Value) : (c.drop kind id).2.gesture = .idle := by
  unfold drop
  split
  · assumption
  · split
    · rfl
    · split <;> rfl

theorem dragStart_gesture (c : Composer) (kind id : Value) :
    (c.dragStart kind id).2.gesture =
      .dragging ((source? (.start kind id)).or c.gesture.source?) := by
  cases hkind : SourceKind.ofValue kind with
  | ok k => simp only [dragStart, Gesture.start, source?, hkind, Option.some_or]
  | error fault => simp only [dragStart, Gesture.start, source?, hkind, Option.none_or]

/-- **A start leaves a drag, from its own source or else from the one before, and every other event
leaves none.** -/
theorem handle_gesture (c : Composer) (e : DragEvent) :
    (c.handle e).gesture =
      if e.isStart then .dragging (e.source?.or c.gesture.source?) else .idle := by
  cases e with
  | start kind id => exact dragStart_gesture c kind id
  | drop kind id => exact drop_gesture c kind id
  | cancel => rfl

/-- A start that is refused leaves everything as it is exactly if a drag is going on. -/
theorem dragStart_refused {kind id : Value} {fault : Fault}
    (h : SourceKind.ofValue kind = .error fault) :
    (c.dragStart kind id).1 = .error fault ∧
      ((c.dragStart kind id).2 = c ↔ c.gesture.IsDragging) := by
  obtain ⟨set, gesture, store⟩ := c
  unfold dragStart Gesture.start
  rw [h]
  refine ⟨rfl, ?_⟩
  cases gesture with
  | idle =>
    refine iff_of_false (fun heq => ?_) Gesture.not_isDragging_idle
    cases congrArg Composer.gesture heq
  | dragging source => exact iff_of_true rfl (Gesture.isDragging_dragging source)

/-! ## Runs of events -/

/-- **The gesture tells the starts since the last drag was ended.** -/
theorem after_gesture (hidle : c.gesture = .idle) (events : List DragEvent) :
    (c.after events).gesture = .ofStarts (sinceEnd events) := by
  induction events using List.reverseRecOn with
  | nil => exact hidle
  | append_singleton es e ih =>
    have hstep : (c.after (es ++ [e])).gesture = ((c.after es).handle e).gesture := by
      unfold after
      rw [List.foldl_append, List.foldl_cons, List.foldl_nil]
    rw [hstep, handle_gesture, ih, Gesture.source?_ofStarts]
    unfold sinceEnd
    rw [List.rtakeWhile_concat]
    cases he : e.isStart with
    | false => rfl
    | true =>
      simp only [if_true]
      rw [Gesture.ofStarts_of_ne_nil (by simp), lastSource_append, lastSource_singleton]

/-- The source is that of the last accepted start as soon as one of the starts since the last end
was accepted; a drag without one has no source. -/
theorem ofStarts_tracks_iff (events : List DragEvent) :
    (Gesture.ofStarts (sinceEnd events)).Tracks events ↔
      sinceEnd events = [] ∨ ∃ e ∈ sinceEnd events, e.source? ≠ none := by
  unfold Gesture.Tracks
  rw [Gesture.source?_ofStarts, ← lastSource_ne_none_iff]
  rcases List.eq_nil_or_concat' (sinceEnd events) with hnil | ⟨starts, e, hstarts⟩
  · rw [hnil]
    exact iff_of_true (iff_of_false Gesture.not_isDragging_idle nofun) (.inl rfl)
  · have hne : sinceEnd events ≠ [] := by simp [hstarts]
    have hdragging : (Gesture.ofStarts (sinceEnd events)).IsDragging := by
      rw [Gesture.ofStarts_of_ne_nil hne]
      exact Gesture.isDragging_dragging _
    simp only [hdragging, true_iff, hne, false_or]
    constructor
    · rintro ⟨source, -, hsource⟩
      simp [hsource]
    · intro hsome
      obtain ⟨source, hsource⟩ := Option.ne_none_iff_exists'.mp hsome
      obtain ⟨before, hbefore⟩ := List.rtakeWhile_suffix isStart events
      refine ⟨source, ?_, hsource⟩
      calc lastSource events = lastSource (before ++ sinceEnd events) :=
            congrArg lastSource hbefore.symm
        _ = (lastSource (sinceEnd events)).or (lastSource before) := lastSource_append _ _
        _ = some source := by rw [hsource, Option.some_or]

theorem onStore_gesture {catalog : Catalog} {rules : Rules} {tokens : Tokens} {store : MemoryStore}
    (h : onStore catalog rules tokens store = .ok c) : c.gesture = .idle := by
  obtain ⟨set, _, h⟩ := Outcome.of_bind_ok h
  cases h
  rfl

/-- **The gesture of a composer tracks the starts, unless all of them since the last drag was ended
were refused.**  A refused start always leaves the source as it is, and all else exactly if a drag
was going on. -/
theorem onStore_after_tracks_iff {catalog : Catalog} {rules : Rules} {tokens : Tokens}
    {store : MemoryStore} (hopen : onStore catalog rules tokens store = .ok c)
    (events : List DragEvent) :
    ((c.after events).gesture.Tracks events ↔
      sinceEnd events = [] ∨ ∃ e ∈ sinceEnd events, e.source? ≠ none) ∧
    ∀ kind id fault, SourceKind.ofValue kind = .error fault →
      ((c.after events).dragStart kind id).1 = .error fault ∧
      ((c.after events).dragStart kind id).2.gesture.source? = (c.after events).gesture.source? ∧
      (((c.after events).dragStart kind id).2 = c.after events ↔ sinceEnd events ≠ []) := by
  have hgesture := after_gesture (onStore_gesture hopen) events
  refine ⟨hgesture ▸ ofStarts_tracks_iff events, fun kind id fault hrefused => ?_⟩
  obtain ⟨houtcome, hsame⟩ := @dragStart_refused (c.after events) kind id fault hrefused
  refine ⟨houtcome, ?_, ?_⟩
  · rw [dragStart_gesture]
    simp only [source?, hrefused, Option.none_or, Gesture.source?]
  · rw [hsame, hgesture]
    constructor
    · rintro hdragging hnil
      rw [hnil] at hdragging
      exact Gesture.not_isDragging_idle hdragging
    · intro hne
      rw [Gesture.ofStarts_of_ne_nil hne]
      exact Gesture.isDragging_dragging _

/-- A new composer of the employee directory. -/
def newDirectory : Composer :=
  ⟨.empty Employees.catalog ⟨default, Settings.bundled.limits⟩ ⟨[], 0⟩, .idle, .empty⟩

theorem newDirectory_opened :
    onStore Employees.catalog ⟨default, Settings.bundled.limits⟩ ⟨[], 0⟩ .empty =
      .ok newDirectory := rfl

/-- A filter that is dragged after a definition was dropped, and then a start that is refused. -/
def refusedWhileDragging : List DragEvent :=
  [.start (.text "filter") (.text "salary"), .drop .null .null,
    .start (.text "active-filter") (.text "a"), .start (.text "shelf") (.text "b")]

/-- The filter is still tracked, also after one more start is refused. -/
theorem onStore_after_tracks_iff_refused :
    (newDirectory.after refusedWhileDragging).gesture.Tracks refusedWhileDragging ∧
    ((newDirectory.after refusedWhileDragging).dragStart (.text "shelf") .null).2 =
      newDirectory.after refusedWhileDragging := by
  obtain ⟨htracks, hrefused⟩ := onStore_after_tracks_iff newDirectory_opened refusedWhileDragging
  refine ⟨htracks.mpr (.inr ⟨.start (.text "active-filter") (.text "a"), ?_, nofun⟩), ?_⟩
  · exact List.mem_cons_self
  · exact (hrefused _ _ _ rfl).2.2.mpr nofun

/-- **A start that is refused while no drag is going on is not tracked**: the composer counts as
dragging, without a source. -/
theorem not_onStore_after_tracks :
    ¬ ∀ (c : Composer) (events : List DragEvent),
      onStore Employees.catalog ⟨default, Settings.bundled.limits⟩ ⟨[], 0⟩ .empty = .ok c →
        (c.after events).gesture.Tracks events := by
  intro htracks
  have hconsistent := htracks newDirectory [.start (.text "shelf") (.text "x")] newDirectory_opened
  obtain ⟨source, hsource, -⟩ := hconsistent.mp ⟨none, rfl⟩
  cases hsource

end Composer

end Winnow

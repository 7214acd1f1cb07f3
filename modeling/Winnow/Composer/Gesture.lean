import Winnow.Value.Literal

/-!
# Drag gestures

A drag starts at a source and ends with a drop over a target, or is given up.

* `Gesture`: whether a drag is going on, and from which source.
* `Gesture.start`: begins a drag, in place of one that is going on.  A source of an unknown kind is
  refused and leaves the source as it was, but a drag is going on from then on.
* `DropTarget.ofValue`: the target that a value names, if it names one.
-/

namespace Winnow

/-- Where a drag starts. -/
inductive SourceKind where
  /-- One of the definitions on offer. -/
  | available
  /-- One of the filters in the set. -/
  | active
  deriving DecidableEq, Repr

namespace SourceKind

/-- The written form of a kind of source. -/
def word : SourceKind → Text
  | .available => "filter"
  | .active => "active-filter"

/-- The kind of source that a value names. -/
def ofValue (v : Value) : Except Fault SourceKind :=
  match [SourceKind.available, SourceKind.active].find? fun k => v.equals (.text k.word) with
  | some k => .ok k
  | none => do .error (.notAMember (← v.literal) "DragSourceKind")

end SourceKind

/-- Where a drag ends. -/
inductive DropTarget where
  /-- The surface that shows the filters of the set. -/
  | surface
  /-- One of the filters in the set. -/
  | filter
  deriving DecidableEq, Repr

namespace DropTarget

/-- The written form of a target. -/
def word : DropTarget → Text
  | .surface => "active-filters-droppable"
  | .filter => "active-filter"

/-- The target that a value names, if it names one. -/
def ofValue (v : Value) : Except Fault (Option DropTarget) :=
  if v.isHashable then
    .ok ([DropTarget.surface, DropTarget.filter].find? fun t => v.equals (.text t.word))
  else .error .unhashable

end DropTarget

/-- The source of a drag. -/
structure DragSource where
  kind : SourceKind
  id : Value

/-- Whether a drag is going on, and from which source. -/
inductive Gesture where
  | idle
  | dragging (source : Option DragSource)

namespace Gesture

/-- The source of a drag that is going on. -/
def source? : Gesture → Option DragSource
  | .idle => none
  | .dragging source => source

/-- The written form of the state of a gesture. -/
def word : Gesture → Text
  | .idle => "idle"
  | .dragging _ => "dragging"

/-- Begins a drag. -/
def start (g : Gesture) (kind id : Value) : Except Fault Unit × Gesture :=
  match SourceKind.ofValue kind with
  | .ok k => (.ok (), .dragging (some ⟨k, id⟩))
  | .error fault => (.error fault, .dragging g.source?)

end Gesture

end Winnow

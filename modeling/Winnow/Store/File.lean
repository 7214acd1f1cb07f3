import Winnow.Store.Codec
import Winnow.Store.Folder

/-!
# Stores in a file

A store in a file saves by writing a neighbour of the file, whose name has one more ending, and then
moving it into place.
-/

namespace Winnow

/-- A store in the file at a path. -/
structure FileStore where
  path : Path

namespace FileStore

/-- The ending of the neighbour that a save writes first. -/
def draftEnding : Text := ".tmp"

/-- The path of that neighbour. -/
def draft (s : FileStore) : Path := s.path.withEnding draftEnding

/-- What the file holds, nothing if it is not there. -/
def load (s : FileStore) (f : Folder) : Except Fault (Option Bytes) :=
  match f.at? s.path with
  | .ok (some n) =>
    match n.content? with
    | some content => .ok (some content)
    | none => .error (.file .isFolder)
  | .ok none => .ok none
  | .error fault => .error (.file fault)

/-- The outcome of a step that leaves the files as they are where it fails. -/
def attempt (f : Folder) (step : Except FileFault Folder) : Except Fault Unit × Folder :=
  match step with
  | .ok g => (.ok (), g)
  | .error fault => (.error (.file fault), f)

/-- Makes the folder for the file, which needs a name. -/
def prepare (s : FileStore) (f : Folder) : Except Fault Unit × Folder :=
  match f.makeFolders s.path.dropLast with
  | (.error fault, f) => (.error (.file fault), f)
  | (.ok (), f) =>
    if s.path.isNameless then (.error (.file (.nameless s.path.text.quoted)), f) else (.ok (), f)

/-- Saves data, and tells how that left the files.  What was done before a step that fails stays
done. -/
def save (s : FileStore) (data : Bytes) (f : Folder) : Except Fault Unit × Folder :=
  match s.prepare f with
  | (.error fault, f) => (.error fault, f)
  | (.ok (), f) =>
    match f.write s.draft data with
    | .error fault => (.error (.file fault), f)
    | .ok f => attempt f (f.rename s.draft s.path)

/-- Saves a set; one that has no text is not saved. -/
def persist (s : FileStore) (set : FilterSet) (f : Folder) : Except Fault Unit × Folder :=
  match set.serialize with
  | .error fault => (.error fault, f)
  | .ok t => s.save t.utf8 f

end FileStore

end Winnow

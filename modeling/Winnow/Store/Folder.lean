import Winnow.Text.Encoding
import Winnow.Value

/-!
# Files and folders

The part of a file system that programs see: files and folders by their places.  A folder is there
if it was made or if something is in it.

* `Path.ofText`: the path of a text, with points and doubled slashes left out.
* `Folder.surroundings`: what there is beside the working folder.
* `Folder.walk`: the place that a path leads to.  Every name on the way has to be that of a folder,
  also where the next step goes back, and names may not be too long.
* `Folder.at?`, `Folder.find`: what is at a path.
* `Folder.read`, `Folder.write`, `Folder.append`, `Folder.makeFolders`, `Folder.rename`: the
  operations, with the reasons for which they can fail.
-/

namespace Winnow

/-- The names on the way to a file or a folder, and its own, from the working folder or else from
the root.  Some may be steps back. -/
abbrev Path := List Text

namespace Path

/-- The first name of a path that leads from the root, and what stands between names. -/
def root : Text := "/"

/-- The name that steps back. -/
def back : Text := ".."

/-- Whether a name stays where it is. -/
def isIdle (name : Text) : Bool := name = [] || name = ("." : Text)

/-- Where the way along a text begins. -/
def start (t : Text) : Path := if root.isPrefixOf t then [root] else []

/-- The largest number of bytes in a name. -/
def nameLimit : Nat := 255

/-- The largest number of bytes in the text of a path. -/
def textLimit : Nat := 4095

/-- Whether a name has too many bytes. -/
def isLong (name : Text) : Bool := nameLimit < name.nameBytes.length

/-- The path of a text. -/
def ofText (t : Text) : Path :=
  start t ++ (Text.splitOn root t).filter fun name => !isIdle name

/-- The path that a value is; only a text is one. -/
def ofValue (v : Value) : Except Fault Path :=
  match v with
  | .text t => .ok (ofText t)
  | _ => .error .unusableSetting

/-- The text of a path. -/
def text (p : Path) : Text :=
  match p with
  | [] => "."
  | name :: names =>
    if name = root then root ++ List.intercalate root names
    else List.intercalate root (name :: names)

/-- The path with an ending behind its last name. -/
def withEnding (p : Path) (ending : Text) : Path :=
  match p.getLast? with
  | some name => p.dropLast ++ [name ++ ending]
  | none => p

/-- Whether a path has no name of its own. -/
def isNameless (p : Path) : Bool := p = [] || p = [root]

/-- Whether a place lies in the working folder. -/
def isInside (place : Path) : Bool := place.head? ≠ some back && place.head? ≠ some root

/-- Whether a place is the working folder or a folder around it. -/
def isOutside (place : Path) : Bool := place.all (· = back)

/-- The place one step further.  Beyond the working folder a step back stays in the place. -/
def move (place : Path) (name : Text) : Path :=
  if isIdle name then place
  else if name ≠ back ∨ isOutside place then place ++ [name]
  else if place = [root] then place
  else place.dropLast

/-- The path without steps back; each takes the name before it away. -/
def direct (p : Path) : Path :=
  match p with
  | [] => []
  | name :: names => if name = root then names.foldl move [name] else p.foldl move []

end Path

/-- What is at a place. -/
inductive Node where
  | file (content : Bytes)
  | folder
  /-- A file that holds nothing, whatever is written to it. -/
  | sink
  deriving DecidableEq

/-- What a file holds. -/
def Node.content? : Node → Option Bytes
  | .file content => some content
  | .folder => none
  | .sink => some []

/-- Files and folders by their places. -/
structure Folder where
  nodes : List (Path × Node)
  deriving DecidableEq

namespace Folder

/-- What there is beside the working folder: a place for files that are not to be kept, and a sink.
-/
def surroundings : Folder :=
  ⟨[([Path.root, "tmp"], .folder), ([Path.root, "dev", "null"], .sink)]⟩

/-! ## Places -/

/-- The file at a place. -/
def file? (f : Folder) (place : Path) : Option Bytes :=
  match f.nodes.lookup place with
  | some (.file content) => some content
  | _ => none

/-- Whether there is a folder at a place: the working folder and those around it, the root, a folder
that was made, or one that holds something. -/
def hasFolder (f : Folder) (place : Path) : Bool :=
  place.isOutside || place = [Path.root] || f.nodes.any fun n =>
    (n.1 == place && n.2 == .folder) || (place.isPrefixOf n.1 && n.1 != place)

/-- What is at a place. -/
def node? (f : Folder) (place : Path) : Option Node :=
  if f.hasFolder place then some .folder else f.nodes.lookup place

/-- The place that names lead to from another one, if the way goes through folders. -/
def walk (f : Folder) (place : Path) : List Text → Except FileFault Path
  | [] => .ok place
  | name :: names =>
    match f.node? place with
    | some .folder =>
      if Path.isLong name then .error .nameTooLong else f.walk (place.move name.onDisk) names
    | some _ => .error .notAFolder
    | none => .error .missing

/-- Refuses the code point zero in paths, code points without bytes, and too many bytes. -/
def checkText (t : Text) : Except FileFault Unit :=
  if !t.isFileName then .error .unencodable
  else if t.contains Text.nul then .error .nullByte
  else if Path.textLimit < t.nameBytes.length then .error .nameTooLong
  else .ok ()

/-- Where the way along a path begins, and the names on it. -/
def way : Path → Path × List Text
  | [] => ([], [])
  | name :: names => if name = Path.root then ([name], names) else ([], name :: names)

/-- The place of a path. -/
def place (f : Folder) (p : Path) : Except FileFault Path := do
  checkText p.text
  f.walk (way p).1 (way p).2

/-- What is at a place that may not be there: nothing, unless the fault is one that matters. -/
def nodeUnless (f : Folder) (matters : FileFault → Bool) (place : Except FileFault Path) :
    Except FileFault (Option Node) :=
  match place with
  | .ok place => .ok (f.node? place)
  | .error fault => if matters fault then .error fault else .ok none

/-- What is at a path.  A path that no file can have leads nowhere, but names that are too long are
refused. -/
def at? (f : Folder) (p : Path) : Except FileFault (Option Node) :=
  f.nodeUnless (· = .nameTooLong) (f.place p)

/-- What is at the path of a text.  A text that ends in a slash names a folder, and names that are
too long lead nowhere. -/
def find (f : Folder) (t : Text) : Except FileFault (Option Node) :=
  f.nodeUnless (fun fault => fault = .unencodable || fault = .nullByte) do
    checkText t
    if t = [] then .error .missing else f.walk (Path.start t) (Text.splitOn Path.root t)

/-! ## Changes -/

/-- Puts something at a place. -/
def put (f : Folder) (place : Path) (n : Node) : Folder :=
  ⟨(f.nodes.filter fun e => e.1 != place) ++ [(place, n)]⟩

/-- Takes what is at a place away. -/
def erase (f : Folder) (place : Path) : Folder := ⟨f.nodes.filter fun e => e.1 != place⟩

/-- The content of the file at a path. -/
def read (f : Folder) (p : Path) : Except FileFault Bytes := do
  match f.node? (← f.place p) with
  | some n =>
    match n.content? with
    | some content => return content
    | none => .error .isFolder
  | none => .error .missing

/-- Makes folders along names from a folder where they are missing, up to a name for which that is
not possible.  Whether the folder is still to be made is told. -/
def makeWay (f : Folder) (place : Path) (isNew : Bool) :
    List Text → Except FileFault Unit × Folder
  | [] => (.ok (), if isNew then f.put place .folder else f)
  | name :: names =>
    let made := if isNew then f.put place .folder else f
    let next := place.move name.onDisk
    if Path.isLong name then (.error .nameTooLong, made)
    else if name = Path.back then made.makeWay next false names
    else if isNew then f.makeWay next true names
    else
      match f.node? next with
      | some .folder => f.makeWay next false names
      | some _ => (.error .exists, f)
      | none => f.makeWay next true names

/-- The number of names from the first on that leads to no folder. -/
def missingNames (f : Folder) (place : Path) : List Text → Nat
  | [] => 0
  | name :: names =>
    let next := place.move name.onDisk
    if f.hasFolder next then f.missingNames next names else names.length + 1

/-- How many folders are made at most, each in the one before. -/
def depthLimit : Nat := 985

/-- Makes a folder at a path, and those on the way to it where they are missing.  The folder may be
there already. -/
def makeFolders (f : Folder) (p : Path) : Except FileFault Unit × Folder :=
  match f.nodeUnless (· ≠ .missing) (f.place p) with
  | .error fault => (.error fault, f)
  | .ok (some .folder) => (.ok (), f)
  | .ok (some _) => (.error .exists, f)
  | .ok none =>
    let (start, names) := way p
    if depthLimit < f.missingNames start names then (.error .tooDeep, f)
    else f.makeWay start false names

/-- Writes a file at a path in a folder that is there. -/
def write (f : Folder) (p : Path) (content : Bytes) : Except FileFault Folder := do
  let place ← f.place p
  match f.node? place with
  | some .folder => .error .isFolder
  | some .sink => return f
  | _ => return f.put place (.file content)

/-- Appends to a file at a path, which is made if it is not there. -/
def append (f : Folder) (p : Path) (content : Bytes) : Except FileFault Folder :=
  match f.read p with
  | .ok old => f.write p (old ++ content)
  | .error .missing => f.write p content
  | .error fault => .error fault

/-- Moves a file to a path, where it replaces a file. -/
def rename (f : Folder) (source target : Path) : Except FileFault Folder := do
  let content ← f.read source
  if target.getLast? = some Path.back then .error .busy
  let place ← f.place target
  if f.hasFolder place then .error .isFolder
  return (f.put place (.file content)).erase (← f.place source)

/-- The files with their places. -/
def files (f : Folder) : List (Path × Bytes) :=
  f.nodes.filterMap fun n =>
    match n.2 with
    | .file content => some (n.1, content)
    | .folder | .sink => none

end Folder

end Winnow

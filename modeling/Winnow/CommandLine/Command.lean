import Winnow.Catalog.Employees
import Winnow.CommandLine.Arguments
import Winnow.Store.Folder
import Winnow.Text.Lowercase

/-!
# Commands and what they are asked

The program has three commands, and options of its own in front of them.

* `Command`: the commands, with their options and arguments.
* `Preamble.read`: what stands in front of the command, checked.
* `Request.read`: what a command is asked to do, checked.  Options are checked in the order in which
  they are given, and arguments after them.
-/

namespace Winnow.CommandLine

/-! ## The commands -/

/-- A command. -/
inductive Command where
  /-- Lists the definitions of the catalog. -/
  | definitions
  /-- Shows stored filters as a query. -/
  | compile
  /-- Applies stored filters to records. -/
  | apply
  deriving DecidableEq, Repr

/-- An option in front of the command. -/
inductive ProgramOption where
  | registry
  | config
  | quiet
  | help
  deriving DecidableEq, Repr

/-- An option of a command. -/
inductive CommandOption where
  | format
  | output
  | help
  deriving DecidableEq, Repr

/-- The options in front of the command, which end where it stands. -/
def programForm : Form ProgramOption where
  options := [⟨.registry, some 'r', "--registry", true⟩, ⟨.config, some 'c', "--config", true⟩,
    ⟨.quiet, some 'q', "--quiet", false⟩, ⟨.help, none, "--help", false⟩]
  interspersed := false

/-- The name of the program. -/
def programName : Text := "filter-composer"

namespace Command

/-- Every command. -/
def all : List Command := [.definitions, .compile, .apply]

/-- The word of a command. -/
def word : Command → Text
  | .definitions => "definitions"
  | .compile => "compile"
  | .apply => "apply"

/-- The command with a word. -/
def ofText? (t : Text) : Option Command := all.find? fun c => c.word == t

/-- The names of the arguments. -/
def arguments : Command → List Text
  | .definitions => []
  | .compile => ["STATE"]
  | .apply => ["STATE", "RECORDS"]

/-- The options of a command, which may stand between its arguments. -/
def form (c : Command) : Form CommandOption where
  options :=
    (match c with
      | .definitions => []
      | .compile => [⟨.format, some 'f', "--format", true⟩]
      | .apply => [⟨.output, some 'o', "--output", true⟩]) ++ [⟨.help, none, "--help", false⟩]
  interspersed := true

end Command

/-- The program or one of its commands, as it is called. -/
def calledAs : Option Command → Text
  | none => programName
  | some c => programName ++ " " ++ c.word

/-- How the program or one of its commands is used. -/
def usage (c : Option Command) : Text :=
  let parts : List Text := match c with
    | none => ["COMMAND", "[ARGS]..."]
    | some c => c.arguments
  "Usage: " ++ List.intercalate " " (calledAs c :: "[OPTIONS]" :: parts) ++ "\n"

/-! ## Why a run ends early -/

/-- A reason to end a run before its work is done. -/
inductive Ending where
  /-- The program, or one of its commands, was called wrongly. -/
  | misuse (command : Option Command) (m : Misuse)
  /-- Help was asked for. -/
  | help (command : Option Command)
  /-- The content of a file is not what it should be. -/
  | refusal (reason : Text)
  /-- Something failed on the way. -/
  | failure (fault : Fault)
  deriving DecidableEq

/-- The result of a check, where a misuse ends the run. -/
def Ending.ofCheck {α : Type} (command : Option Command) (r : Except Misuse α) : Except Ending α :=
  r.mapError (.misuse command)

/-- The result of a step, where a fault ends the run. -/
def Ending.ofStep {α : Type} (r : Except Fault α) : Except Ending α := r.mapError .failure

/-! ## Values -/

/-- A text without regard to letter case; the long s counts as an s. -/
def foldCase (t : Text) : Text := t.lower.map fun c => if c = .scalar 'ſ' then .scalar 's' else c

/-- The end of a run in which the value of a subject cannot be used. -/
def refuse {α : Type} (command : Option Command) (subject reason : Text) : Except Ending α :=
  .error (.misuse command (.badValue subject reason))

/-- The choice that a value names, whatever its letter case. -/
def choose (command : Option Command) (subject : Text) (choices : List Text) (value : Text) :
    Except Ending Text :=
  match choices.find? fun c => c == foldCase value, choices with
  | some c, _ => .ok c
  | none, [c] => refuse command subject (value.quoted ++ " is not " ++ c.quoted ++ ".")
  | none, _ =>
    refuse command subject <| value.quoted ++ " is not one of " ++
      List.intercalate ", " (choices.map Text.quoted) ++ "."

/-- The path of a file, which need not be there unless it is said to. -/
def filePath (f : Folder) (command : Option Command) (subject : Text) (mustExist : Bool)
    (value : Text) : Except Ending Path := do
  let name := value.shownName.quoted
  match ← Ending.ofStep ((f.find value).mapError .file) with
  | some .folder => refuse command subject ("File " ++ name ++ " is a directory.")
  | some _ => return Path.ofText value
  | none =>
    if mustExist then refuse command subject ("File " ++ name ++ " does not exist.")
    else return Path.ofText value

/-! ## In front of the command -/

/-- What stands in front of the command, the command, and what stands behind it. -/
structure Preamble where
  catalog : Catalog
  config : Option Path
  quiet : Bool
  command : Command
  words : List Text

namespace Preamble

/-- Checks the value of an option. -/
def check (f : Folder) : ProgramOption × Option Text → Except Ending Unit
  | (.registry, some v) => discard (choose none "'-r' / '--registry'" Catalog.names v)
  | (.config, some v) => discard (filePath f none "'-c' / '--config'" true v)
  | _ => .ok ()

/-- Reads and checks the options in front of the command. -/
def options (f : Folder) (words : List Text) : Except Ending (Given ProgramOption) := do
  let given ← Ending.ofCheck none (programForm.read words)
  if given.options.any (·.1 = .help) then .error (.help none)
  given.options.forM (check f)
  return given

/-- The command that stands first in the arguments, and what stands behind it.  Where there is no
such command, it may be that options stand behind the mark that ends them. -/
def split (f : Folder) : List Text → Except Ending (Command × List Text)
  | [] => .error (.misuse none .commandMissing)
  | name :: words =>
    match Command.ofText? name with
    | some c => .ok (c, words)
    | none => do
      discard (options f (name :: words))
      let similar := (Command.all.map Command.word).filter (Text.resembles · name)
      .error (.misuse none (.noSuchCommand name similar))

/-- The catalog with a name, whatever its letter case, the first one where none is named. -/
def catalogOf (name : Option Text) : Catalog :=
  match Catalog.named.find? fun c => name.all fun n => c.1 == foldCase n with
  | some c => c.2
  | none => Catalog.empty []

/-- Reads and checks what stands in front of the command. -/
def read (f : Folder) (words : List Text) : Except Ending Preamble := do
  if words = [] then .error (.help none)
  let given ← options f words
  let (command, words) ← split f given.arguments
  return ⟨catalogOf (given.value? .registry), (given.value? .config).map Path.ofText,
    given.options.any (·.1 = .quiet), command, words⟩

end Preamble

/-! ## Behind the command -/

/-- The form in which stored filters are shown. -/
inductive Shown where
  | query
  | params
  | payload
  deriving DecidableEq, Repr

/-- The names of the forms. -/
def Shown.named : List (Text × Shown) :=
  [("query", .query), ("params", .params), ("payload", .payload)]

/-- What a command is asked to do. -/
inductive Request where
  | definitions
  | compile (state : Path) (shown : Shown)
  | apply (state records : Path) (output : Option Path)
  deriving DecidableEq

namespace Request

/-- Checks the value of an option. -/
def check (f : Folder) (c : Command) : CommandOption × Option Text → Except Ending Unit
  | (.format, some v) => discard (choose c "'-f' / '--format'" (Shown.named.map (·.1)) v)
  | (.output, some v) => discard (filePath f c "'-o' / '--output'" false v)
  | _ => .ok ()

/-- The path of an argument. -/
def argument (f : Folder) (c : Command) (name : Text) (mustExist : Bool) (value : Option Text) :
    Except Ending Path :=
  match value with
  | none => .error (.misuse c (.argumentMissing name))
  | some v => filePath f c ("'" ++ name ++ "'") mustExist v

/-- Refuses arguments beyond a number. -/
def noMoreThan (c : Command) (n : Nat) (arguments : List Text) : Except Ending Unit :=
  if arguments.length ≤ n then .ok () else .error (.misuse c (.extraArguments (arguments.drop n)))

/-- The form that an option names, the query where it is not given. -/
def shownOf (name : Option Text) : Shown :=
  (name.bind fun n => Shown.named.lookup (foldCase n)).getD .query

/-- What a command is asked by its options and arguments. -/
def ofGiven (f : Folder) (c : Command) (given : Given CommandOption) : Except Ending Request := do
  given.options.forM (check f c)
  match c with
  | .definitions =>
    noMoreThan c 0 given.arguments
    return .definitions
  | .compile =>
    let state ← argument f c "STATE" false given.arguments[0]?
    noMoreThan c 1 given.arguments
    return .compile state (shownOf (given.value? .format))
  | .apply =>
    let state ← argument f c "STATE" false given.arguments[0]?
    let records ← argument f c "RECORDS" true given.arguments[1]?
    noMoreThan c 2 given.arguments
    return .apply state records ((given.value? .output).map Path.ofText)

/-- Reads and checks the words behind a command. -/
def read (f : Folder) (c : Command) (words : List Text) : Except Ending Request := do
  let given ← Ending.ofCheck (some c) (c.form.read words)
  if given.options.any (·.1 = .help) then .error (.help (some c))
  ofGiven f c given

end Request

/-! ## Files -/

/-- The texts that a command is given as names of files. -/
def filesBehind (c : Command) (words : List Text) : List Text :=
  match c.form.read words with
  | .error _ => []
  | .ok given => (given.value? .output).toList ++ given.arguments

/-- The paths of the files that words name. -/
def filesNamed (words : List Text) : List Path :=
  match programForm.read words with
  | .error _ => []
  | .ok given =>
    let behind := match given.arguments with
      | [] => []
      | name :: words => ((Command.ofText? name).map (filesBehind · words)).getD []
    ((given.value? .config).toList ++ behind).map Path.ofText

end Winnow.CommandLine

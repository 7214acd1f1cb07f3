import Winnow.CommandLine.Command
import Winnow.Evaluation
import Winnow.Json.Pieces
import Winnow.Query.Params
import Winnow.Settings
import Winnow.Store.File
import Winnow.Text.Shown

/-!
# The command line

A run of the program turns its words and the files that it sees into what it prints, how it exits,
and the files as it leaves them.

* `CommandLine.prepare`: the preamble, and the settings that it asks for.
* `Session.perform`: what a command does, once the log file is open.
* `CommandLine.run`: a whole run.  A run that is called wrongly exits with 2, one that is refused or
  fails with 1.
-/

namespace Winnow.CommandLine

/-! ## Outcomes -/

/-- What comes of a run. -/
structure Outcome where
  exitCode : Nat
  output : Text
  /-- What is shown about it. -/
  errors : Text
  /-- What failed, if the run did not end in an orderly way. -/
  fault? : Option Fault
  /-- The files as the run leaves them. -/
  files : Folder

namespace Outcome

/-- A run that did its work and printed something. -/
def done (output : Text) (files : Folder) : Outcome := ⟨0, output, [], none, files⟩

/-- A message about an error. -/
def complaint (message : Text) : Text := Text.shown ("Error: " ++ message ++ "\n")

/-- A run that ended early. -/
def ofEnding (files : Folder) : Ending → Outcome
  | .misuse c m =>
    let usage := if m.showsUsage then
      usage c ++ "Try '" ++ calledAs c ++ " --help' for help.\n\n" else []
    ⟨2, [], usage ++ complaint m.message, none, files⟩
  | .help c => ⟨0, usage c, [], none, files⟩
  | .refusal reason => ⟨1, [], complaint reason, none, files⟩
  | .failure fault => ⟨1, [], [], some fault, files⟩

/-- The outcome of a run that may have ended early. -/
def ofExcept (files : Folder) : Except Ending Outcome → Outcome
  | .ok o => o
  | .error ending => ofEnding files ending

end Outcome

/-! ## Settings -/

/-- A run that was called properly. -/
structure Session where
  preamble : Preamble
  rules : Rules
  separator : Separator
  log : Path
  now : Moment

/-- The content of a file. -/
def contentOf (f : Folder) (p : Path) : Except Fault Bytes := (f.read p).mapError .file

/-- The settings under the document in a file. -/
def configured (settings : Settings) (f : Folder) (p : Path) : Except Ending Settings := do
  let document ← Ending.ofStep do Document.read (← Bytes.ofTextFile (← contentOf f p))
  match settings.load p.text document with
  | .ok s => return s
  | .error fault =>
    .error (.refusal ("Bad format of configuration file: " ++ fault.message?.getD []))

/-- The preamble of a run, and the settings that it asks for. -/
def prepare (settings : Settings) (now : Moment) (words : List Text) (f : Folder) :
    Except Ending Session := do
  let preamble ← Preamble.read f words
  let settings ← match preamble.config with
    | none => .ok settings
    | some p => configured settings f p
  let log ← Ending.ofStep (Path.ofValue (settings.setting .logFile).value)
  return ⟨preamble, ⟨now.date, settings.limits⟩, settings.separator .null, log.direct, now⟩

/-! ## Commands -/

namespace Session

/-- The catalog that was asked for. -/
def catalog (s : Session) : Catalog := s.preamble.catalog

/-- The filters that are stored in a file, none if it holds none that can be read. -/
def filterSet (s : Session) (f : Folder) (state : Path) : Except Fault FilterSet :=
  FilterSet.hydrate s.catalog s.rules ⟨[], 0⟩
    ((FileStore.load ⟨state⟩ f).map fun content => content.map Blob.bytes)

/-- Filters as a value in one of the forms. -/
def valueIn (s : Session) (shown : Shown) (filters : List Filter) : Except Fault Value :=
  match shown with
  | .query => (Query.ofFilters s.catalog filters).map Query.wire
  | .params => (Query.paramsOfFilters s.catalog s.separator filters).map .object
  | .payload => Query.payload s.catalog s.now filters

end Session

/-- The record that a value is. -/
def record? : Value → Option Record
  | .object entries => some entries
  | _ => none

/-- The records that a value is a list of. -/
def records? : Value → Option (List Record)
  | .list items => items.mapM record?
  | _ => none

/-- The records in a JSON text. -/
def recordsOf (t : Text) : Except Ending (List Record) :=
  match Json.read t with
  | .ok v =>
    match records? v with
    | some records => .ok records
    | none => .error (.refusal "Records file must contain a JSON list of objects")
  | .error (.longInteger digits) => .error (.failure (.digitLimit (some digits)))
  | .error (.tooDeep what) => .error (.failure (.tooDeep what))
  | .error refusal =>
    .error (.refusal ("Records file is not valid JSON: " ++ (refusal.reason? t).getD []))

/-- A value as it is printed; a surrogate standing alone cannot be printed. -/
def printed (v : Value) : Except Fault Text := do
  let t ← v.json .page
  discard t.toUtf8
  return t ++ "\n"

namespace Session

/-- A line of the log. -/
def logLine (s : Session) (message : Text) : Except Fault Text := do
  return (← Query.timestamp s.now) ++ " INFO " ++ message ++ "\n"

/-- What is logged about the records that were selected. -/
def selectionMessage (selected all filters : Nat) : Text :=
  Numeral.digits selected ++ " of " ++ Numeral.digits all ++ " records match " ++
    Numeral.digits filters ++ " filters"

/-- Writes a value to a file, piece by piece up to one that cannot be written. -/
def writeValue (f : Folder) (p : Path) (v : Value) : Outcome :=
  let pieces := v.pieces .page
  match f.write p (Text.utf8 (pieces.takeWhile Text.isScalar).flatten) with
  | .error fault => .ofEnding f (.failure (.file fault))
  | .ok f =>
    if pieces.all Text.isScalar then .done [] f else .ofEnding f (.failure .unencodable)

/-- Selects and sorts records by stored filters, which is logged. -/
def apply (s : Session) (f : Folder) (state records : Path) (output : Option Path) :
    Except Ending Outcome := do
  let records ← recordsOf (← Ending.ofStep do Bytes.ofTextFile (← contentOf f records))
  let set ← Ending.ofStep (s.filterSet f state)
  let rows ← Ending.ofStep (set.evaluate s.rules.today (Row.number records))
  let message := selectionMessage rows.length records.length set.filters.length
  let line ← Ending.ofStep (s.logLine message)
  let f ← Ending.ofStep ((f.append s.log line.utf8).mapError .file)
  let result : Value := .list (rows.map fun row => .object row.record)
  let outcome := match output with
    | some p => writeValue f p result
    | none => .ofExcept f do return .done (← Ending.ofStep (printed result)) f
  return if s.preamble.quiet then outcome else { outcome with errors := line ++ outcome.errors }

/-- Does what a command is asked to do. -/
def perform (s : Session) (f : Folder) : Request → Except Ending Outcome
  | .definitions => do
    let listed : Value := .list (s.catalog.definitions.map Definition.describe)
    return .done (← Ending.ofStep (printed listed)) f
  | .compile state shown => do
    let set ← Ending.ofStep (s.filterSet f state)
    let v ← Ending.ofStep (s.valueIn shown set.filters)
    return .done (← Ending.ofStep (printed v)) f
  | .apply state records output => s.apply f state records output

end Session

/-! ## Runs -/

/-- Reads the words behind the command, and does what they ask. -/
def Session.run (s : Session) (f : Folder) : Except Ending Outcome := do
  s.perform f (← Request.read f s.preamble.command s.preamble.words)

/-- A whole run.  The log file is there once the preamble has been read. -/
def run (settings : Settings) (now : Moment) (words : List Text) (f : Folder) : Outcome :=
  match prepare settings now words f with
  | .error ending => .ofEnding f ending
  | .ok s =>
    match f.append s.log [] with
    | .error fault => .ofEnding f (.failure (.file fault))
    | .ok f => .ofExcept f (s.run f)

end Winnow.CommandLine

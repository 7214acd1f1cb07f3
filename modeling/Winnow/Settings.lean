import Winnow.Numeral
import Winnow.Query.Separator
import Winnow.Settings.Reader
import Winnow.Settings.Schema
import Winnow.Shape

/-!
# Settings

Every setting has a value and a description.  Settings are made of layers: the bundled ones, the
variables of the environment, and documents.  A layer takes effect as a whole, and only if it keeps
the rules.

* `Environment.ofEntries`: the variables of named values.
* `Settings.bundled`: the first layer.
* `Settings.loadEnvironment`, `Settings.load`: the layers on top of it.
* `Settings.reset`: back to the bundled settings and the environment.  Where the environment breaks
  the rules, the bundled settings stay.
* `Settings.limits`, `Settings.separator` and the others: the settings as the program reads them.
-/

namespace Winnow

/-- The value and the description of a setting. -/
structure Setting where
  value : Value
  description : Text

/-- The settings, by key. -/
structure Settings where
  setting : SettingKey → Setting

/-- The variables of the environment. -/
abbrev Environment := List (Text × Text)

namespace Environment

/-- The text of a variable as the environment gives it back. -/
def text (v : Value) : Except Fault Text :=
  match v with
  | .text t =>
    if !t.isFileName then .error .unencodable
    else if t.contains Text.nul then .error (.file .nullByte)
    else .ok t.onDisk
  | _ => .error .unusableSetting

/-- The variables of named values, up to the first that cannot be set. -/
def ofEntries : Value.Entries → Except Fault Unit × Environment
  | [] => (.ok (), [])
  | (name, v) :: es =>
    match text v with
    | .error fault => (.error fault, [])
    | .ok t =>
      let (outcome, environment) := ofEntries es
      (outcome, (name, t) :: environment)

end Environment

namespace Settings

/-- The settings of the program itself. -/
def bundledSetting : SettingKey → Setting
  | .logFile => ⟨.text "./filter_composer.log",
      "Path to the file where the command line interface writes its log."⟩
  | .separator => ⟨.text ",",
      "Separator used to join list values in the flat parameter encoding of a query."⟩
  | .textLength => ⟨.int 1000, "Longest string accepted as a filter value."⟩
  | .listLength => ⟨.int 100, "Largest number of items accepted in a list-valued filter."⟩
  | .storePath => ⟨.text "active_filters.json",
      "Default path of the JSON file holding the persisted active filter set."⟩
  | .storeKey => ⟨.text "employeeFilters",
      "Key under which the active filter set is persisted in key-value stores."⟩
  | .collection => ⟨.text "active_filters",
      "MongoDB collection that holds persisted active filter sets."⟩

/-- The settings of the program itself. -/
def bundled : Settings := ⟨bundledSetting⟩

/-! ## Layers -/

/-- The text that a value is. -/
def textOf? : Value → Option Text
  | .text t => some t
  | _ => none

/-- A setting under an entry of a document, which replaces its value and perhaps its description. -/
def overlaySetting (old : Setting) (entry : Document) : Setting :=
  ⟨((entry.entry? Document.valueKey).bind Document.value?).getD old.value,
    ((entry.entry? Document.descriptionKey).bind fun d => d.value?.bind textOf?).getD
      old.description⟩

/-- The settings under a document. -/
def overlay (s : Settings) (d : Document) : Settings :=
  ⟨fun key =>
    match d.entry? key.word with
    | some entry => overlaySetting (s.setting key) entry
    | none => s.setting key⟩

/-- The settings under a document that comes from a given origin. -/
def loadFrom (s : Settings) (origin : Text) (d : Document) : Except Fault Settings := do
  match ← d.complaint? with
  | some c => .error (.settingsRejected c.message origin)
  | none => .ok (s.overlay d)

/-- The settings under the document of a file. -/
def load (s : Settings) (file : Text) (d : Document) : Except Fault Settings :=
  s.loadFrom (("file " : Text) ++ file) d

/-- Whether the text of a variable is read as an integer where a setting has a given value. -/
def readsInteger : Value → Bool
  | .int _ | .bool _ => true
  | _ => false

/-- The value of a setting by the text of a variable; integers are read for integers. -/
def variableValue (key : SettingKey) (old : Value) (t : Text) : Except Fault Value :=
  if readsInteger old then
    match Numeral.toInt t with
    | .ok n => .ok (.int n)
    | .error _ => .error (.integerExpected key.variableName t.quoted)
  else .ok (.text t)

/-- The name and the value of a setting whose variable is set. -/
def variableEntry (s : Settings) (environment : Environment) (key : SettingKey) :
    Except Fault (Option (Text × Value)) :=
  match environment.lookup key.variableName with
  | none => .ok none
  | some t => do return some (key.word, ← variableValue key (s.setting key).value t)

/-- The document of the variables of the environment. -/
def environmentDocument (s : Settings) (environment : Environment) : Except Fault Document := do
  let entries ← SettingKey.all.mapM (s.variableEntry environment)
  return .ofEntries Document.valueKey (entries.filterMap id)

/-- The settings under the variables of the environment. -/
def loadEnvironment (s : Settings) (environment : Environment) : Except Fault Settings := do
  s.loadFrom "environment" (← s.environmentDocument environment)

/-- The settings without any document, and whether the environment kept the rules. -/
def reset (environment : Environment) : Except Fault Unit × Settings :=
  match bundled.loadEnvironment environment with
  | .ok s => (.ok (), s)
  | .error fault => (.error fault, bundled)

/-! ## Single settings -/

/-- The value of the setting with a name. -/
def get (s : Settings) (name : Text) : Except Fault Value :=
  match SettingKey.ofText? name with
  | some key => .ok (s.setting key).value
  | none => .error (.unknownSetting name)

/-- Sets the value of the setting with a name, which no rule restricts. -/
def set (s : Settings) (name : Text) (v : Value) : Except Fault Settings :=
  match SettingKey.ofText? name with
  | some key => .ok ⟨fun k => if k = key then { s.setting k with value := v } else s.setting k⟩
  | none => .error (.unknownSetting name)

/-- The description of the setting with a name. -/
def describe? (s : Settings) (name : Text) : Option Text :=
  (SettingKey.ofText? name).map fun key => (s.setting key).description

/-- All settings as an object. -/
def toValue (s : Settings) : Value :=
  .object (SettingKey.all.map fun key => (key.word, (s.setting key).value))

/-! ## Settings as the program reads them -/

/-- The limits of filter values. -/
def limits (s : Settings) : Limits := ⟨(s.setting .textLength).value, (s.setting .listLength).value⟩

/-- A value, or that of a setting where it is absent or empty. -/
def valueOr (s : Settings) (key : SettingKey) (given : Value) : Value :=
  if given.isVoid then (s.setting key).value else given

/-- The separator of list items in flat parameters. -/
def separator (s : Settings) (given : Value) : Separator :=
  .ofValue (s.valueOr .separator given)

end Settings

end Winnow

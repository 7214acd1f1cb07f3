import Winnow.Settings.Document

/-!
# What settings may hold

* `SettingKey`: the settings there are, and `SettingKey.rule` what the value of each must be.
* `Document.complaints`: where a settings document breaks the rules.
* `Document.complaint?`: the complaint that is reported: the one nearest to the root; of several the
  one whose path comes last in the order of texts, and then the first.
-/

namespace Winnow

/-- A setting. -/
inductive SettingKey where
  | logFile
  | separator
  | textLength
  | listLength
  | storePath
  | storeKey
  | collection
  deriving DecidableEq, Repr

/-- What the value of a setting must be. -/
inductive SettingRule where
  | text
  | filledText
  | positive
  deriving DecidableEq, Repr

namespace SettingKey

/-- Every setting, in the order of declaration. -/
def all : List SettingKey :=
  [.logFile, .separator, .textLength, .listLength, .storePath, .storeKey, .collection]

/-- The name of a setting. -/
def word : SettingKey → Text
  | .logFile => "log_filepath"
  | .separator => "flat_params_array_separator"
  | .textLength => "max_string_value_length"
  | .listLength => "max_array_length"
  | .storePath => "filter_store_path"
  | .storeKey => "filter_store_key"
  | .collection => "mongo_filter_collection"

/-- The variable of the environment for a setting. -/
def variableName : SettingKey → Text
  | .logFile => "FILTER_COMPOSER_LOG_FILEPATH"
  | .separator => "FILTER_COMPOSER_FLAT_PARAMS_ARRAY_SEPARATOR"
  | .textLength => "FILTER_COMPOSER_MAX_STRING_VALUE_LENGTH"
  | .listLength => "FILTER_COMPOSER_MAX_ARRAY_LENGTH"
  | .storePath => "FILTER_COMPOSER_FILTER_STORE_PATH"
  | .storeKey => "FILTER_COMPOSER_FILTER_STORE_KEY"
  | .collection => "FILTER_COMPOSER_MONGO_FILTER_COLLECTION"

/-- The setting with a name. -/
def ofText? (t : Text) : Option SettingKey := all.find? fun k => k.word == t

/-- What the value of a setting must be. -/
def rule : SettingKey → SettingRule
  | .separator => .filledText
  | .textLength | .listLength => .positive
  | _ => .text

end SettingKey

/-- A broken rule and where it is broken. -/
structure Complaint where
  path : List Text
  message : Text

namespace Complaint

/-- Comparison of paths by their parts. -/
def orderPaths : List Text → List Text → Ordering
  | [], [] => .eq
  | [], _ :: _ => .lt
  | _ :: _, [] => .gt
  | s :: ss, t :: ts => (Text.order s t).then (orderPaths ss ts)

/-- Whether a complaint is reported before another one. -/
def outranks (a b : Complaint) : Bool :=
  if a.path.length = b.path.length then orderPaths a.path b.path == .gt
  else a.path.length < b.path.length

/-- The complaint to report; of equals the first. -/
def worst? : List Complaint → Option Complaint
  | [] => none
  | c :: cs => some (cs.foldl (fun best c => if c.outranks best then c else best) c)

end Complaint

namespace Document

/-- The complaint about a document, which it quotes. -/
def complaintOn (path : List Text) (d : Document) (message : Text) : Except Fault Complaint := do
  return ⟨path, (← d.literal) ++ message⟩

/-- The complaint about a document that is not of a type. -/
def notOfType (path : List Text) (d : Document) (type : Text) : Except Fault Complaint :=
  complaintOn path d (" is not of type '" ++ type ++ "'")

/-- The complaints about what must be a text. -/
def textComplaints (path : List Text) (d : Document) : Except Fault (List Complaint) :=
  match d.value? with
  | some (.text _) => .ok []
  | _ => do return [← notOfType path d "string"]

/-- The complaints about what must be a text that is not empty. -/
def filledTextComplaints (path : List Text) (d : Document) : Except Fault (List Complaint) :=
  match d.value? with
  | some (.text []) => do return [← complaintOn path d " should be non-empty"]
  | _ => textComplaints path d

/-- Whether a value is an integer; a binary64 number may be one. -/
def isInteger : Value → Bool
  | .int _ => true
  | .float x => x.toInt?.isSome
  | _ => false

/-- Whether a number is less than one. -/
def isBelowOne (v : Value) : Bool := v.isNumber &&
  match v.numeric? with
  | some x => x.order? (.int 1) == some .lt
  | none => false

/-- The complaints about what must be a positive integer. -/
def positiveComplaints (path : List Text) (d : Document) : Except Fault (List Complaint) := do
  let (isWhole, isSmall) := match d.value? with
    | some v => (isInteger v, isBelowOne v)
    | none => (false, false)
  let type ← if isWhole then pure [] else do pure [← notOfType path d "integer"]
  let range ← if isSmall then do pure [← complaintOn path d " is less than the minimum of 1"]
    else pure []
  return type ++ range

/-- The complaints about the value of a setting. -/
def valueComplaints (rule : SettingRule) (path : List Text) (d : Document) :
    Except Fault (List Complaint) :=
  match rule with
  | .text => textComplaints path d
  | .filledText => filledTextComplaints path d
  | .positive => positiveComplaints path d

/-- The key of the description of a setting. -/
def descriptionKey : Text := "description"

/-- The key of the value of a setting. -/
def valueKey : Text := "value"

/-- The complaints about a setting: a mapping with a value and perhaps a description. -/
def settingComplaints (key : SettingKey) (d : Document) : Except Fault (List Complaint) := do
  match d.cell with
  | .mapping _ =>
    let description ← match d.entry? descriptionKey with
      | some e => textComplaints [key.word, descriptionKey] e
      | none => pure []
    let value ← match d.entry? valueKey with
      | some e => valueComplaints key.rule [key.word, valueKey] e
      | none => pure [⟨[key.word], valueKey.quoted ++ (" is a required property" : Text)⟩]
    return description ++ value
  | _ => return [← notOfType [key.word] d "object"]

/-- The keys among others that name no setting. -/
def strangers (keys : List Yaml.Atom) : List Yaml.Atom :=
  keys.filter fun key => SettingKey.all.all fun k => !key.isText k.word

/-- The complaint about keys that name no setting, in the order of their texts. -/
def strangerComplaints (keys : List Yaml.Atom) : Except Fault (List Complaint) := do
  let keys ← (strangers keys).mapM fun key => do return (← key.plainText, ← key.literal)
  let sorted := keys.mergeSort fun k l => Text.order k.1 l.1 != .gt
  if sorted.isEmpty then return []
  let verb : Text := if sorted.length = 1 then " was" else " were"
  return [⟨[], ("Additional properties are not allowed (" : Text) ++
    commaSeparated (sorted.map (·.2)) ++ verb ++ (" unexpected)" : Text)⟩]

/-- Where a settings document breaks the rules. -/
def complaints (d : Document) : Except Fault (List Complaint) := do
  match d.cell with
  | .mapping entries =>
    let parts ← SettingKey.all.mapM fun key =>
      match d.entry? key.word with
      | some e => settingComplaints key e
      | none => pure []
    return parts.flatten ++ (← strangerComplaints (entries.map (·.1)))
  | _ => return [← notOfType [] d "object"]

/-- The complaint about a settings document that is reported, if it breaks the rules. -/
def complaint? (d : Document) : Except Fault (Option Complaint) :=
  d.complaints.map Complaint.worst?

end Document

end Winnow

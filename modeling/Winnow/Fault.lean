import Winnow.Text.Quoted

/-!
# What can go wrong

One constructor per cause.  `Fault.message?` gives the wording of the causes that have one; the
others are told apart by their constructor alone.
-/

namespace Winnow

/-- Why an access to a file failed. -/
inductive FileFault where
  | isFolder
  | exists
  | notAFolder
  | missing
  | unencodable
  | nullByte
  /-- A name, or a whole path, has too many bytes. -/
  | nameTooLong
  /-- Nothing can be put in the place of a step back. -/
  | busy
  /-- Too many folders would have to be made, each in the one before. -/
  | tooDeep
  /-- A path, given by its quoted text, has no name of its own. -/
  | nameless (quoted : Text)
  deriving DecidableEq, Repr

/-- A part of a date or of a time of day. -/
inductive CalendarPart where
  | month
  | day
  | hour
  | minute
  | second
  deriving DecidableEq, Repr

/-- What a document store was asked to do. -/
inductive StoreAction where
  | load
  | save
  deriving DecidableEq, Repr

/-- The cause of a failure. -/
inductive Fault where
  /-- A number has no binary64, or an instant lies outside the years 1 to 9999. -/
  | outOfRange
  /-- A number has more digits before its point than decimal arithmetic keeps. -/
  | tooManyPlaces
  /-- An integer has more decimal digits than are converted; the count where text is read. -/
  | digitLimit (digits : Option Nat)
  /-- A text is no integer numeral in a base. -/
  | notAnInteger (base : Nat) (quoted : Text)
  /-- A text is no numeral of a binary64 number. -/
  | notANumber (quoted : Text)
  /-- A text that is said to be a number is empty. -/
  | emptyNumeral
  /-- A text that is said to be a timestamp is none. -/
  | notATimestamp
  /-- A number stands for no code point. -/
  | notACodePoint
  /-- An offset from UTC of a day or more. -/
  | offsetTooLarge
  /-- A text cannot be cut at an empty separator. -/
  | emptySeparator
  /-- A text with the code point zero cannot be collated. -/
  | nullCharacter
  /-- A value has no form in a JSON text. -/
  | notJson
  /-- A list or an object cannot be looked up. -/
  | unhashable
  /-- A change names something that cannot be changed. -/
  | unknownChange
  /-- A literal is not one of the names of a group. -/
  | notAMember (literal : Text) (group : Text)
  /-- A default operator that its own definition does not allow. -/
  | defaultNotAllowed (operator id : Text)
  /-- A selection without options. -/
  | optionsMissing (id : Text)
  /-- No catalog of that name. -/
  | unknownCatalog (name supported : Text)
  /-- A filter is to be composed for a definition that the catalog lacks. -/
  | unknownDefinition (id : Text)
  /-- A stored filter refers to a definition that the catalog lacks. -/
  | unresolvable (id : Text)
  /-- A stored filter lacks a part. -/
  | missingKey (key : Text)
  /-- A stored filter is no object. -/
  | notAnEntry
  /-- Stored filters that cannot be read as a list. -/
  | malformed (reason : Text)
  /-- A JSON text that nests too deep. -/
  | tooDeep (what : Text)
  /-- Bytes that are no text in their encoding. -/
  | undecodable (reason : Text)
  /-- A text with a surrogate standing alone has no bytes. -/
  | unencodable
  /-- A document store failed. -/
  | storeFailed (action : StoreAction) (key : Text)
  /-- The file system refused. -/
  | file (fault : FileFault)
  /-- Settings that their rules reject, and where they came from. -/
  | settingsRejected (reason origin : Text)
  /-- A variable of the environment that should hold an integer. -/
  | integerExpected (name quoted : Text)
  /-- No setting of that name. -/
  | unknownSetting (key : Text)
  /-- A setting has a value that cannot be used. -/
  | unusableSetting
  /-- Lists are to be joined with a value that is no text. -/
  | notASeparator
  /-- A year that is not in the calendar. -/
  | yearOutOfRange (year : Nat)
  /-- A part of a date or of a time of day that does not exist. -/
  | partOutOfRange (part : CalendarPart)
  /-- A zone whose offset from UTC, given in literal notation, is a day or more. -/
  | zoneTooLarge (literal : Text)
  /-- A settings document with a code point that texts do not hold. -/
  | documentCharacter
  /-- A settings document with a misplaced indicator. -/
  | documentToken
  /-- A settings document whose structure is broken. -/
  | documentStructure
  /-- A settings document with a broken reference, or one that is not alone in its file. -/
  | documentReference
  /-- A settings document with a node that has no value. -/
  | documentValue
  /-- A settings document with a mapping that is said to be a timestamp. -/
  | mappingAsTimestamp
  /-- A settings document that nests too deep. -/
  | nestedTooDeep
  deriving DecidableEq, Repr

/-- The wording about a part of a date or of a time of day that does not exist. -/
def CalendarPart.complaint : CalendarPart → Text
  | .month => "month must be in 1..12"
  | .day => "day is out of range for month"
  | .hour => "hour must be in 0..23"
  | .minute => "minute must be in 0..59"
  | .second => "second must be in 0..59"

namespace Fault

/-- The wording of a failure. -/
def message? : Fault → Option Text
  | .digitLimit (some n) => some <|
      "Exceeds the limit (4300 digits) for integer string conversion: value has " ++
        Text.ofString (toString n) ++
        " digits; use sys.set_int_max_str_digits() to increase the limit"
  | .digitLimit none => some <|
      Text.ofString ("Exceeds the limit (4300 digits) for integer string conversion; " ++
        "use sys.set_int_max_str_digits() to increase the limit")
  | .notAnInteger base quoted => some <|
      "invalid literal for int() with base " ++ Text.ofString (toString base) ++ ": " ++ quoted
  | .notANumber quoted => some ("could not convert string to float: " ++ quoted)
  | .notACodePoint => some "chr() arg not in range(0x110000)"
  | .offsetTooLarge => some <|
      Text.ofString ("offset must be a timedelta strictly between " ++
        "-timedelta(hours=24) and timedelta(hours=24).")
  | .emptySeparator => some "empty separator"
  | .nullCharacter => some "embedded null character"
  | .notAMember literal group => some (literal ++ " is not a valid " ++ group)
  | .defaultNotAllowed operator id => some <|
      "Default operator '" ++ operator ++ "' of '" ++ id ++ "' is not among its allowed operators"
  | .optionsMissing id => some ("Select filter '" ++ id ++ "' must declare its options")
  | .unknownCatalog name supported => some <|
      "Unknown filter catalog: " ++ name ++ ". Supported: " ++ supported
  | .unknownDefinition id => some ("Filter definition not found for id: " ++ id)
  | .unresolvable id => some ("Active filter references unknown definition: " ++ id)
  | .missingKey key => some key.quoted
  | .malformed reason => some reason
  | .tooDeep what => some <|
      "maximum recursion depth exceeded while decoding a JSON " ++ what ++
        " from a unicode string"
  | .undecodable reason => some reason
  | .storeFailed .load key => some ("Failed to load active filters under key " ++ key)
  | .storeFailed .save key => some ("Failed to save active filters under key " ++ key)
  | .file .nullByte => some "embedded null byte"
  | .file (.nameless quoted) => some ("PosixPath(" ++ quoted ++ ") has an empty name")
  | .settingsRejected reason origin => some (reason ++ "\n\nIn " ++ origin)
  | .integerExpected name quoted => some <|
      name ++ " must be an integer, got " ++ quoted
  | .unknownSetting key => some ("Unknown setting: " ++ key)
  | .yearOutOfRange year => some <|
      Text.ofString ("year " ++ toString year ++ " is out of range")
  | .partOutOfRange part => some part.complaint
  | .zoneTooLarge literal => some <|
      Text.ofString ("offset must be a timedelta strictly between " ++
        "-timedelta(hours=24) and timedelta(hours=24), not ") ++ literal ++ "."
  | _ => none

/-- Whether a failure is one of arithmetic. -/
def isArithmetic (fault : Fault) : Bool := fault = .outOfRange || fault = .tooManyPlaces

end Fault

end Winnow

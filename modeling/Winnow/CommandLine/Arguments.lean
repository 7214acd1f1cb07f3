import Winnow.Text.Quoted
import Winnow.Text.Similarity

/-!
# Options and arguments

The words behind a command are its options and its arguments.  An option is called by its word after
two hyphens, or by its letter after one; letters can share a hyphen.  The value of an option follows
an equals sign, or follows the letter at once, or is the next word.  Two hyphens alone end the
options.

* `Misuse`: what can be wrong with a command line; `Misuse.message` words it.
* `Form.read`: the options and arguments that words give to a command with certain options.
* `Given.options`: every option once, at its first place and with its last value.
-/

namespace Winnow.CommandLine

/-! ## Misuse -/

/-- What is wrong with a command line. -/
inductive Misuse where
  /-- There is no such option, but some are similar. -/
  | noSuchOption (name : Text) (similar : List Text)
  | valueMissing (name : Text)
  | valueUnexpected (name : Text)
  /-- The value of an option or an argument cannot be used. -/
  | badValue (subject reason : Text)
  | argumentMissing (name : Text)
  | extraArguments (arguments : List Text)
  | commandMissing
  /-- There is no such command, but some are similar. -/
  | noSuchCommand (name : Text) (similar : List Text)
  deriving DecidableEq, Repr

namespace Misuse

/-- The suggestion of similar names. -/
def suggestion (similar : List Text) : Text :=
  match (similar.mergeSort fun a b => Text.order a b != .gt).map Text.quoted with
  | [] => []
  | [name] => " Did you mean " ++ name ++ "?"
  | names => " (Did you mean one of: " ++ List.intercalate ", " names ++ "?)"

/-- The wording of a misuse. -/
def message : Misuse → Text
  | noSuchOption name similar => "No such option " ++ name.quoted ++ "." ++ suggestion similar
  | valueMissing name => "Option " ++ name.quoted ++ " requires an argument."
  | valueUnexpected name => "Option " ++ name.quoted ++ " does not take a value."
  | badValue subject reason => "Invalid value for " ++ subject ++ ": " ++ reason
  | argumentMissing name => "Missing argument '" ++ name ++ "'."
  | extraArguments [a] => "Got unexpected extra argument (" ++ a ++ ")"
  | extraArguments as => "Got unexpected extra arguments (" ++ List.intercalate " " as ++ ")"
  | commandMissing => "Missing command."
  | noSuchCommand name similar => "No such command " ++ name.quoted ++ "." ++ suggestion similar

/-- Whether the usage is shown along with a misuse. -/
def showsUsage : Misuse → Bool
  | valueMissing _ | valueUnexpected _ => false
  | _ => true

end Misuse

/-! ## Options -/

/-- How an option is written. -/
structure OptionForm (α : Type) where
  option : α
  /-- Its letter, if it has one. -/
  letter? : Option Char
  /-- Its word, hyphens included. -/
  word : Text
  /-- Whether it takes a value. -/
  valued : Bool

/-- How the options of a command are written, and whether options may follow arguments. -/
structure Form (α : Type) where
  options : List (OptionForm α)
  interspersed : Bool

/-- The options with their values and the arguments, in the order of the words. -/
structure Given (α : Type) where
  calls : List (α × Option Text)
  arguments : List Text

/-- The options that one word calls, and the option that takes its value from the next word, with
the name by which it is called. -/
structure Called (α : Type) where
  calls : List (α × Option Text)
  waiting : Option (α × Text)

variable {α : Type}

/-- Two hyphens, which begin the word of an option, and alone end the options. -/
def hyphens : Text := "--"

/-- Whether a word calls options. -/
def callsOption (word : Text) : Bool := word.head? == some (.scalar '-') && word.length != 1

/-- A word before and after its first equals sign. -/
def cutAtEquals (word : Text) : Text × Option Text :=
  let name := word.takeWhile (· ≠ .scalar '=')
  (name, (word.drop name.length).tail?)

/-- What is given behind some calls. -/
def Given.behind (calls : List (α × Option Text)) (given : Given α) : Given α :=
  { given with calls := calls ++ given.calls }

namespace OptionForm

/-- A call of an option by its word, perhaps with a value. -/
def call (o : OptionForm α) (value : Option Text) : Except Misuse (Called α) :=
  match o.valued, value with
  | true, some v => .ok ⟨[(o.option, some v)], none⟩
  | true, none => .ok ⟨[], some (o.option, o.word)⟩
  | false, some _ => .error (.valueUnexpected o.word)
  | false, none => .ok ⟨[(o.option, none)], none⟩

end OptionForm

namespace Form

/-- The options that are called by letters behind one hyphen. -/
def callLetters (form : Form α) : Text → Except Misuse (Called α)
  | [] => .ok ⟨[], none⟩
  | c :: cs =>
    let name : Text := [.scalar '-', c]
    match form.options.find? fun o => o.letter?.map CodePoint.scalar == some c with
    | none => .error (.noSuchOption name [])
    | some o =>
      if o.valued then
        .ok (if cs.isEmpty then ⟨[], some (o.option, name)⟩ else ⟨[(o.option, some cs)], none⟩)
      else do
        let called ← form.callLetters cs
        return { called with calls := (o.option, none) :: called.calls }

/-- The options that a word calls. -/
def call (form : Form α) (word : Text) : Except Misuse (Called α) :=
  let (name, value) := cutAtEquals word
  match form.options.find? fun o => o.word == name with
  | some o => o.call value
  | none =>
    if hyphens.isPrefixOf word then
      let words := form.options.map OptionForm.word
      .error (.noSuchOption name (words.filter (Text.resembles · name)))
    else form.callLetters (word.drop 1)

/-- The options and arguments that words give. -/
def read (form : Form α) : List Text → Except Misuse (Given α)
  | [] => .ok ⟨[], []⟩
  | word :: words =>
    if word = hyphens then .ok ⟨[], words⟩
    else if callsOption word then
      match form.call word with
      | .error misuse => .error misuse
      | .ok ⟨calls, none⟩ => (form.read words).map (Given.behind calls)
      | .ok ⟨calls, some (o, name)⟩ =>
        match words with
        | [] => .error (.valueMissing name)
        | v :: words => (form.read words).map (Given.behind (calls ++ [(o, some v)]))
    else if form.interspersed then
      (form.read words).map fun given => { given with arguments := word :: given.arguments }
    else .ok ⟨[], word :: words⟩

end Form

namespace Given

/-- Notes a call, in the place of an earlier call of the option if there is one. -/
def note [DecidableEq α] (calls : List (α × Option Text)) (call : α × Option Text) :
    List (α × Option Text) :=
  if calls.any fun c => c.1 = call.1 then calls.map fun c => if c.1 = call.1 then call else c
  else calls ++ [call]

/-- Every option once, at its first place and with its last value. -/
def options [DecidableEq α] (given : Given α) : List (α × Option Text) :=
  given.calls.foldl note []

/-- The value of an option. -/
def value? [DecidableEq α] (given : Given α) (option : α) : Option Text :=
  (given.options.lookup option).bind id

end Given

end Winnow.CommandLine

import Winnow.Calendar.Freeform.Token
import Winnow.Calendar.Iso
import Winnow.Decimal

/-!
# Free-form dates

`Moment.ofFreeform` reads dates as people write them: numbers with hyphens, slashes or points,
names of months and weekdays, ordinals, times on the 12-hour or the 24-hour clock, and offsets.  It
walks over the tokens of the text once and gathers a `Draft`; then it decides which of up to three
numbers is the year, the month and the day, and fills what is missing from the present day.

* `Draft.step`: what one token, with the tokens around it, adds.
* `DateNumbers.resolve?`: the roles of the numbers; where nothing else decides, the month comes
  first.
* `fullYear`: years of two digits lie within fifty years of the present one.
-/

namespace Winnow.Freeform

/-- The position of a word in a list of groups of synonyms. -/
def wordIndex? (groups : List (List String)) (token : Token) : Option Nat :=
  let word := String.ofList (token.map Char.toLower)
  groups.findIdx? (·.contains word)

/-- The names of the days of the week. -/
def weekday? : Token → Option Nat := wordIndex?
  [["mon", "monday"], ["tue", "tuesday"], ["wed", "wednesday"], ["thu", "thursday"],
   ["fri", "friday"], ["sat", "saturday"], ["sun", "sunday"]]

/-- The number of a month from its name. -/
def month? (token : Token) : Option Nat := (wordIndex?
  [["jan", "january"], ["feb", "february"], ["mar", "march"], ["apr", "april"], ["may"],
   ["jun", "june"], ["jul", "july"], ["aug", "august"], ["sep", "sept", "september"],
   ["oct", "october"], ["nov", "november"], ["dec", "december"]] token).map (· + 1)

/-- The unit of time that a word names: 0 for hours, 1 for minutes, 2 for seconds. -/
def unit? : Token → Option Nat := wordIndex?
  [["h", "hour", "hours"], ["m", "minute", "minutes"], ["s", "second", "seconds"]]

/-- The half of the day that a word names: 0 before noon, 1 after it. -/
def halfDay? : Token → Option Nat := wordIndex? [["am", "a"], ["pm", "p"]]

/-- Whether a token may stand between the parts of a date without a meaning of its own. -/
def isFiller (token : Token) : Bool := (wordIndex?
  [[" ", ".", ",", ";", "-", "/", "'", "at", "on", "and", "ad", "m", "t", "of", "st", "nd", "rd",
    "th"]] token).isSome

/-- Whether a word names UTC. -/
def namesUtc (token : Token) : Bool := (wordIndex? [["utc", "gmt", "z"]] token).isSome

/-- The number of a token of digits. -/
def digitsValue? (token : Token) : Option Nat :=
  if token.isEmpty || !token.all Char.isDigit then none
  else some (Numeral.valueOf (token.map (·.toNat - 0x30)))

/-- A number with decimals: the whole part and the digits of the fraction. -/
structure Amount where
  whole : Nat
  fraction : List Char

namespace Amount

/-- The amount of a numeral. -/
def ofToken? (token : Token) : Option Amount := do
  let digits := token.takeWhile Char.isDigit
  let whole ← digitsValue? digits
  match token.dropWhile Char.isDigit with
  | [] => some ⟨whole, []⟩
  | c :: fraction =>
    if c = '.' && fraction.all Char.isDigit then some ⟨whole, fraction⟩ else none

/-- Whether an amount is no integer. -/
def isFractional (a : Amount) : Bool := a.fraction.any (· ≠ '0')

/-- The digits that decimal arithmetic keeps. -/
def precision : Nat := 28

/-- The whole sixtieths in the fraction, which is rounded before and after it is multiplied.  An
amount with too many digits before its point has no fraction. -/
def sixtieths (a : Amount) : Except Fault Nat :=
  if Nat.pow 10 precision ≤ a.whole then .error .tooManyPlaces
  else
    let fraction : Decimal := ⟨(digitsValue? a.fraction).getD 0, -a.fraction.length⟩
    .ok (((fraction.rounded precision).times 60).rounded precision).floor

/-- Whether an amount is at least 1 and at most `n`. -/
def isUpTo (n : Nat) (a : Amount) : Bool :=
  1 ≤ a.whole && (a.whole < n || (a.whole = n && !a.isFractional))

end Amount

/-- A step of reading, which may find that a text is no date, or fail. -/
abbrev Reading := OptionT (Except Fault)

instance : MonadLift Option Reading := ⟨fun o => OptionT.mk (pure o)⟩

/-- The numbers found for a date, in their order, with the places of the year and the month where
these are known. -/
structure DateNumbers where
  numbers : List Nat
  yearAt : Option Nat
  monthAt : Option Nat
  century : Bool

namespace DateNumbers

/-- No numbers. -/
def empty : DateNumbers := ⟨[], none, none, false⟩

/-- Adds a number that may be the year only once, if it must be the year. -/
def push (ns : DateNumbers) (n : Nat) (isYear : Bool) : Option DateNumbers :=
  if isYear ∧ ns.yearAt.isSome then none
  else some
    { ns with
      numbers := ns.numbers ++ [n]
      yearAt := if isYear then some ns.numbers.length else ns.yearAt }

/-- Adds the month of a name; there is only one. -/
def pushMonth (ns : DateNumbers) (n : Nat) : Option DateNumbers :=
  if ns.monthAt.isSome then none
  else some { ns with numbers := ns.numbers ++ [n], monthAt := some ns.numbers.length }

/-- Adds a token of digits.  More than two digits make a year. -/
def pushToken (ns : DateNumbers) (token : Token) (asYear : Bool) : Option DateNumbers := do
  let n ← digitsValue? token
  let long := 2 < token.length
  push { ns with century := ns.century || long } n (asYear || long)

/-- Adds an amount without its fraction.  Anything above a hundred is a year. -/
def pushAmount (ns : DateNumbers) (a : Amount) : Option DateNumbers :=
  let large := 100 < a.whole || (a.whole = 100 && a.isFractional)
  push { ns with century := ns.century || large } a.whole large

/-- Whether an amount can be the day, as far as the month and the year are known. -/
def admitsDay (ns : DateNumbers) (a : Amount) : Option Bool :=
  match ns.monthAt with
  | none => some (a.isUpTo 31)
  | some i =>
    let month := ns.numbers.getD i 0
    let year := match ns.yearAt with
      | some j => ns.numbers.getD j 0
      | none => 2000
    if 1 ≤ month ∧ month ≤ 12 then some (a.isUpTo (daysInMonth year month)) else none

/-- The year, the month and the day, as far as they are given. -/
structure Roles where
  year : Option Nat
  month : Option Nat
  day : Option Nat

/-- The place that is none of two given ones. -/
def thirdPlace (i j : Nat) : Nat := 3 - i - j

/-- The roles of three numbers of which the month's place may be known. -/
def resolveThree (ns : DateNumbers) (a b c : Nat) : Roles :=
  match ns.monthAt with
  | some 0 => if 31 < b then ⟨some b, some a, some c⟩ else ⟨some c, some a, some b⟩
  | some 1 => if 31 < a then ⟨some a, some b, some c⟩ else ⟨some c, some b, some a⟩
  | some _ => if 31 < b then ⟨some b, some c, some a⟩ else ⟨some a, some c, some b⟩
  | none =>
    if 31 < a ∨ ns.yearAt = some 0 then ⟨some a, some b, some c⟩
    else if 12 < a then ⟨some c, some b, some a⟩
    else ⟨some c, some a, some b⟩

/-- The roles of the numbers, from the known places, the sizes and, at last, the order month, day,
year.  More than three numbers make no date. -/
def resolve? (ns : DateNumbers) : Option Roles :=
  let at? (i : Nat) : Option Nat := ns.numbers[i]?
  match ns.numbers, ns.yearAt, ns.monthAt with
  | [y], some _, none => some ⟨some y, none, none⟩
  | [m], none, some _ => some ⟨none, some m, none⟩
  | [_, _], some i, some j => some ⟨at? i, at? j, none⟩
  | [_, _, _], some i, some j => some ⟨at? i, at? j, at? (thirdPlace i j)⟩
  | [], _, _ => some ⟨none, none, none⟩
  | [n], _, _ => some (if 31 < n then ⟨some n, none, none⟩ else ⟨none, none, some n⟩)
  | [a, b], _, some j =>
    let month := if j = 0 then a else b
    let other := if j = 0 then b else a
    some (if 31 < other then ⟨some other, some month, none⟩ else ⟨none, some month, some other⟩)
  | [a, b], _, none =>
    some (if 31 < a then ⟨some a, some b, none⟩
      else if 31 < b then ⟨some b, some a, none⟩
      else ⟨none, some a, some b⟩)
  | [a, b, c], _, _ => some (resolveThree ns a b c)
  | _, _, _ => none

end DateNumbers

/-- What is known of a moment while its text is read. -/
structure Draft where
  numbers : DateNumbers
  weekday : Option Nat
  hour : Option Nat
  minute : Option Nat
  second : Option Nat
  micros : Option Nat
  halfDay : Option Nat
  zoneName : Option Token
  zoneSeconds : Option Int

namespace Draft

/-- Nothing is known yet. -/
def empty : Draft := ⟨.empty, none, none, none, none, none, none, none, none⟩

/-- An hour of the 12-hour clock in a half of the day. -/
def onHalfDay (hour half : Nat) : Nat :=
  if hour < 12 ∧ half = 1 then hour + 12 else if hour = 12 ∧ half = 0 then 0 else hour

/-- Sets the minute, and the second from the fraction of a minute. -/
def setMinute (d : Draft) (a : Amount) : Except Fault Draft := do
  let second ← a.sixtieths
  return { d with minute := some a.whole, second := if a.isFractional then some second else none }

/-- Sets the second and the microsecond from a numeral.  What stands behind the six digits of the
microsecond does not matter. -/
def setSecond (d : Draft) (token : Token) : Option Draft := do
  let whole ← digitsValue? (token.takeWhile (· ≠ '.'))
  match token.dropWhile (· ≠ '.') with
  | [] => some { d with second := some whole, micros := some 0 }
  | _ :: fraction =>
    let kept := fraction.take 6
    if kept.any (fun c => !c.isDigit) then none
    else some { d with second := some whole, micros := some (fractionMicros kept) }

/-- Sets the part of the time that a unit names. -/
def setUnit (d : Draft) (unit : Nat) (token : Token) (a : Amount) : Reading Draft := do
  match unit with
  | 0 =>
    let minute ← a.sixtieths
    return { d with
      hour := some a.whole
      minute := if a.isFractional then some minute else d.minute }
  | 1 => d.setMinute a
  | 2 => d.setSecond token
  | _ => return d

/-- The result of a step: how many of the tokens that follow were used, the tokens that follow as
they are to be read from then on, and the draft. -/
structure Progress where
  used : Nat
  after : List Token
  draft : Draft

/-- The unit that applies to a numeral, from a word after it or else from one before it, and the
number of following tokens up to that word. -/
def unitFor? (before after : List Token) : Option (Nat × Nat) :=
  match after with
  | next :: more =>
    match unit? next, more with
    | some unit, _ => some (unit, 1)
    | none, second :: _ =>
      match (if next = [' '] then unit? second else none) with
      | some unit => some (unit, 2)
      | none => (before.head?.bind unit?).map fun unit => (unit + 1, 0)
    | none, [] => (before.head?.bind unit?).map fun unit => (unit + 1, 0)
  | [] =>
    match before with
    | [' '] :: word :: _ => (unit? word).map fun unit => (unit + 1, 0)
    | word :: _ => (unit? word).map fun unit => (unit + 1, 0)
    | [] => none

/-- A numeral with a hyphen, a slash or a point after it: the beginning of a numeric date. -/
def separated (d : Draft) (token separator : Token) (after : List Token) : Option Progress := do
  let numbers ← d.numbers.pushToken token false
  match after with
  | [] => some ⟨1, [separator], { d with numbers }⟩
  | second :: more =>
    if isFiller second then some ⟨1, separator :: after, { d with numbers }⟩
    else
      let numbers ←
        if second.all Char.isDigit then numbers.pushToken second false
        else numbers.pushMonth (← month? second)
      match more with
      | third :: rest =>
        if third = separator then
          let last ← rest.head?
          let numbers ← match month? last with
            | some m => numbers.pushMonth m
            | none => numbers.pushToken last false
          some ⟨4, separator :: after, { d with numbers }⟩
        else some ⟨2, separator :: after, { d with numbers }⟩
      | [] => some ⟨2, separator :: after, { d with numbers }⟩

/-- A numeral that is none of the special forms: an hour before the name of a half of the day, or a
number of the date. -/
def plain (d : Draft) (a : Amount) (after : List Token) : Option Progress :=
  match after with
  | [] => (d.numbers.pushAmount a).map fun numbers => ⟨0, [], { d with numbers }⟩
  | next :: more =>
    if isFiller next then
      match more.head?.bind halfDay? with
      | some half => some ⟨2, after, { d with hour := some (onHalfDay a.whole half) }⟩
      | none => (d.numbers.pushAmount a).map fun numbers => ⟨1, after, { d with numbers }⟩
    else
      match (if a.whole < 24 then halfDay? next else none) with
      | some half => some ⟨1, after, { d with hour := some (onHalfDay a.whole half) }⟩
      | none => do
        if ← d.numbers.admitsDay a then
          let numbers ← d.numbers.pushAmount a
          some ⟨0, after, { d with numbers }⟩
        else none

/-- What a numeral adds. -/
def numeral (d : Draft) (before : List Token) (token : Token) (after : List Token) :
    Reading Progress := do
  let a ← Amount.ofToken? token
  let width := token.length
  let pointAt := (token.takeWhile (· ≠ '.')).length
  let clockFollows := match after with
    | [] => false
    | next :: _ => next = [':'] || (unit? next).isSome
  if d.numbers.numbers.length = 3 && (width = 2 || width = 4) && d.hour.isNone && !clockFollows then
    -- an hour, or an hour and a minute, right after a full date
    let hour ← digitsValue? (token.take 2)
    if width = 4 then
      let minute ← digitsValue? (token.drop 2)
      return ⟨0, after, { d with hour := some hour, minute := some minute }⟩
    else return ⟨0, after, { d with hour := some hour }⟩
  else if width = 6 || (6 < width && pointAt = 6) then
    if d.numbers.numbers.isEmpty && pointAt = width then
      -- a year, a month and a day of two digits each
      let numbers ← d.numbers.pushToken (token.take 2) false
      let numbers ← numbers.pushToken ((token.drop 2).take 2) false
      let numbers ← numbers.pushToken (token.drop 4) false
      return ⟨0, after, { d with numbers }⟩
    else
      let hour ← digitsValue? (token.take 2)
      let minute ← digitsValue? ((token.drop 2).take 2)
      let d ← setSecond { d with hour := some hour, minute := some minute } (token.drop 4)
      return ⟨0, after, d⟩
  else if width = 8 || width = 12 || width = 14 then
    -- a year of four digits, a month and a day, then perhaps hours, minutes and seconds
    let numbers ← d.numbers.pushToken (token.take 4) true
    let numbers ← numbers.pushToken ((token.drop 4).take 2) false
    let numbers ← numbers.pushToken ((token.drop 6).take 2) false
    let d := { d with numbers }
    if width = 8 then return ⟨0, after, d⟩
    else
      let hour ← digitsValue? ((token.drop 8).take 2)
      let minute ← digitsValue? ((token.drop 10).take 2)
      let d := { d with hour := some hour, minute := some minute }
      if width = 12 then return ⟨0, after, d⟩
      else
        let second ← digitsValue? (token.drop 12)
        return ⟨0, after, { d with second := some second }⟩
  else
    match unitFor? before after with
    | some (unit, used) => return ⟨used, after, ← d.setUnit unit token a⟩
    | none =>
      match after with
      | [':'] :: minute :: more =>
        let d ← setMinute { d with hour := some a.whole } (← Amount.ofToken? minute)
        match more with
        | [':'] :: second :: _ => return ⟨4, after, ← d.setSecond second⟩
        | _ => return ⟨2, after, d⟩
      | next :: more =>
        if next = ['-'] || next = ['/'] || next = ['.'] then d.separated token next more
        else d.plain a after
      | [] => d.plain a after

/-- What the name of a month adds. -/
def monthName (present : Nat → Nat) (d : Draft) (month : Nat) (after : List Token) :
    Option Progress := do
  let numbers ← d.numbers.pushMonth month
  match after with
  | [] => some ⟨0, [], { d with numbers }⟩
  | next :: more =>
    if next = ['-'] || next = ['/'] then
      let numbers ← numbers.pushToken (← more.head?) false
      match more with
      | _ :: second :: rest =>
        if second = next then
          let numbers ← numbers.pushToken (← rest.head?) false
          some ⟨4, after, { d with numbers }⟩
        else some ⟨2, after, { d with numbers }⟩
      | _ => some ⟨2, after, { d with numbers }⟩
    else
      match after with
      | [' '] :: word :: [' '] :: year :: _ =>
        if word.map Char.toLower = ['o', 'f'] then
          match digitsValue? year with
          | some y =>
            let numbers ← numbers.pushToken (Nat.toDigits 10 (present y)) true
            some ⟨4, after, { d with numbers }⟩
          | none => if year.all isDigit then none else some ⟨4, after, { d with numbers }⟩
        else some ⟨0, after, { d with numbers }⟩
      | _ => some ⟨0, after, { d with numbers }⟩

/-- Whether a token can be the name of a zone: after a time, before any zone, up to five capitals or
a name of UTC. -/
def admitsZoneName (d : Draft) (token : Token) (zoneSeconds : Option Int) : Bool :=
  d.hour.isSome && d.zoneName.isNone && zoneSeconds.isNone && token.length ≤ 5 &&
    (token.all Char.isUpper || token = ['z'])

/-- What the name of a zone adds.  A sign after the name is turned round, for `GMT+3` is the zone in
which the clock is three hours ahead of UTC when it shows GMT. -/
def nameZone (d : Draft) (token : Token) (after : List Token) : Progress :=
  let utc := token = ['U', 'T', 'C'] || token = ['G', 'M', 'T'] || token = ['Z'] || token = ['z']
  let d := { d with zoneName := some token, zoneSeconds := if utc then some 0 else none }
  match after with
  | ['+'] :: more =>
    ⟨0, ['-'] :: more,
      { d with zoneSeconds := none, zoneName := if namesUtc token then none else d.zoneName }⟩
  | ['-'] :: more =>
    ⟨0, ['+'] :: more,
      { d with zoneSeconds := none, zoneName := if namesUtc token then none else d.zoneName }⟩
  | _ => ⟨0, after, d⟩

/-- What a sign after a time adds: an offset in digits, and perhaps the name of its zone between
parentheses. -/
def offset (d : Draft) (negative : Bool) (after : List Token) : Option Progress := do
  let digits ← after.head?
  let (hours, minutes, used) ←
    if digits.length = 4 then
      some (← digitsValue? (digits.take 2), ← digitsValue? (digits.drop 2), 1)
    else
      match after with
      | _ :: [':'] :: more => some (← digitsValue? digits, ← digitsValue? (← more.head?), 3)
      | _ => if digits.length ≤ 2 then some (← digitsValue? digits, 0, 1) else none
  let seconds : Int := hours * 3600 + minutes * 60
  let d := { d with zoneSeconds := some (if negative then -seconds else seconds) }
  match after.drop used with
  | blank :: ['('] :: name :: [')'] :: _ =>
    if isFiller blank && 3 ≤ name.length && d.admitsZoneName name none then
      some ⟨used + 4, after, { d with zoneName := some name }⟩
    else some ⟨used, after, d⟩
  | _ => some ⟨used, after, d⟩

/-- The names of numbers that stand for no digits. -/
def isNonfinite (token : Token) : Bool :=
  (wordIndex? [["nan"], ["inf", "infinity"]] token).isSome

/-- What a token adds, given the tokens before it in reverse and those after it. -/
def step (present : Nat → Nat) (d : Draft) (before : List Token) (token : Token)
    (after : List Token) : Reading Progress :=
  if (Amount.ofToken? token).isSome then d.numeral before token after
  else if isNonfinite token then failure
  else if let some w := weekday? token then return ⟨0, after, { d with weekday := some w }⟩
  else if let some m := month? token then d.monthName present m after
  else if let some half := halfDay? token then
    match d.hour with
    | some hour =>
      if hour ≤ 12 then
        return ⟨0, after, { d with hour := some (onHalfDay hour half), halfDay := some half }⟩
      else failure
    | none => failure
  else if d.admitsZoneName token d.zoneSeconds then return d.nameZone token after
  else if d.hour.isSome && (token = ['+'] || token = ['-']) then d.offset (token = ['-']) after
  else if isFiller token then return ⟨0, after, d⟩
  else failure

/-- The draft of a list of tokens.  Every step uses a token at least, so as many steps as there are
tokens suffice. -/
def gather (present : Nat → Nat) : Nat → Draft → List Token → List Token → Reading Draft
  | _, d, _, [] => return d
  | 0, _, _, _ :: _ => failure
  | fuel + 1, d, before, token :: after => do
    let p ← d.step present before token after
    gather present fuel p.draft ((p.after.take p.used).reverse ++ token :: before)
      (p.after.drop p.used)

end Draft

/-- The full year of a year of two digits: the one within fifty years of the present. -/
def fullYear (present year : Nat) : Nat :=
  if year < 100 then
    let y := year + present / 100 * 100
    if present + 50 ≤ y then y - 100 else if y + 50 < present then y + 100 else y
  else year

/-- An offset in seconds, which is kept although it may be out of range, if its whole days, rounded
down, have at most nine digits. -/
def offsetMicros? (seconds : Int) : Option Int :=
  if (seconds / 86400).natAbs < 1000000000 then some (seconds * microsPerSecond) else none

/-- The offset of a draft: nothing if no zone was found or its name is unknown. -/
def Draft.zone (d : Draft) : Option Int :=
  match d.zoneName with
  | none => d.zoneSeconds
  | some name => if namesUtc name then some 0 else d.zoneSeconds

/-- The moment of a draft, with the missing parts taken from the present day. -/
def Draft.moment? (today : Date) (d : Draft) : Option Moment := do
  let roles ← d.numbers.resolve?
  let nothing := roles.year.isNone && roles.month.isNone && roles.day.isNone &&
    d.weekday.isNone && d.hour.isNone && d.minute.isNone && d.second.isNone &&
    d.micros.isNone && d.zoneName.isNone && d.zoneSeconds.isNone
  if nothing then none
  let year := match roles.year with
    | some y => if d.numbers.century then y else fullYear today.year y
    | none => today.year
  let month := roles.month.getD today.month
  let day := match roles.day with
    | some day => day
    | none => min today.day (daysInMonth year month)
  if month < 1 ∨ 12 < month then none
  let date ← Date.of? year month day
  let date ← match d.weekday, roles.day with
    | some w, none => date.addDays? ((7 - date.weekday + w) % 7 : Nat)
    | _, _ => some date
  let time ← TimeOfDay.of? (d.hour.getD 0) (d.minute.getD 0) (d.second.getD 0) (d.micros.getD 0)
  match d.zone with
  | none => some ⟨date, time, none⟩
  | some seconds => do some ⟨date, time, some (← offsetMicros? seconds)⟩

end Winnow.Freeform

namespace Winnow

/-- The moment of a free-form text, missing parts being those of the present day. -/
def Moment.ofFreeform (today : Date) (t : Text) : Freeform.Reading Moment := do
  let tokens := Freeform.tokens (t.map CodePoint.plainChar)
  let draft ← Freeform.Draft.gather (Freeform.fullYear today.year) tokens.length .empty [] tokens
  draft.moment? today

/-- The moment of an ISO 8601 text, or else of a free-form text; taken as UTC without a zone. -/
def Moment.ofText (today : Date) (t : Text) : Except Fault (Option Moment) :=
  match Moment.ofIso? t.chars with
  | some m => .ok (some m.assumeUtc)
  | none => do return (← (Moment.ofFreeform today t).run).map Moment.assumeUtc

end Winnow

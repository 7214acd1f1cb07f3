import Winnow.Fault
import Winnow.Numeral
import Winnow.Text.Quoted

/-!
# Texts as bytes

* `Text.utf8`: the UTF-8 bytes of a text; a surrogate standing alone takes three bytes.
* `Bytes.decodeUtf8`: the text of UTF-8 bytes, with or without such surrogates.
* `Bytes.decode`: the text of bytes whose encoding is told by a mark at their beginning or by
  the zeros among the first four bytes.
* `Bytes.ofUtf8`, `Bytes.ofTextFile`: the text of bytes that have to be UTF-8.
* `Text.nameBytes`: the bytes of the name of a file.  A byte that is no UTF-8 is held as a
  surrogate.  `Text.onDisk` is the name as the file system gives it back, `Text.shownName` as people
  are told it.
-/

namespace Winnow

/-- A sequence of bytes. -/
abbrev Bytes := List UInt8

/-- Bytes that are no text: the place of the first of them, their number, and the reason. -/
structure Malformed where
  place : Nat
  width : Nat
  reason : Text

namespace Text

/-- A code point from its number, or the replacement character. -/
def codePointOr (n : Nat) : CodePoint := (CodePoint.ofNat? n).getD (.scalar '\uFFFD')

/-- The UTF-8 bytes of a code point. -/
def utf8Bytes (c : CodePoint) : Bytes :=
  let n := c.toNat
  let tail (unit : Nat) : UInt8 := UInt8.ofNat (0x80 + n / unit % 0x40)
  if n < 0x80 then [UInt8.ofNat n]
  else if n < 0x800 then [UInt8.ofNat (0xC0 + n / 0x40), tail 1]
  else if n < 0x10000 then [UInt8.ofNat (0xE0 + n / 0x1000), tail 0x40, tail 1]
  else [UInt8.ofNat (0xF0 + n / 0x40000), tail 0x1000, tail 0x40, tail 1]

/-- The UTF-8 bytes of a text. -/
def utf8 (t : Text) : Bytes := t.flatMap utf8Bytes

/-- Whether a text has no surrogate standing alone. -/
def isScalar (t : Text) : Bool :=
  t.all fun c => match c with
    | .scalar _ => true
    | .surrogate _ => false

/-- Whether a text can be the name of a file: a surrogate in it stands for a byte that is no
UTF-8. -/
def isFileName (t : Text) : Bool :=
  t.all fun c => match c with
    | .scalar _ => true
    | .surrogate offset => 0x480 ≤ offset.val && offset.val ≤ 0x4FF

/-- The bytes of the name of a file. -/
def nameBytes (t : Text) : Bytes :=
  t.flatMap fun c => match c with
    | .scalar c => utf8Bytes (.scalar c)
    | .surrogate offset => [UInt8.ofNat (offset.val - 0x400)]

/-- The text with every line break written as a line feed. -/
def unifyLineBreaks : Text → Text
  | [] => []
  | .scalar '\r' :: .scalar '\n' :: t => .scalar '\n' :: unifyLineBreaks t
  | .scalar '\r' :: t => .scalar '\n' :: unifyLineBreaks t
  | c :: t => c :: unifyLineBreaks t

/-- The UTF-8 bytes of a text without surrogates. -/
def toUtf8 (t : Text) : Except Fault Bytes :=
  if t.isScalar then .ok t.utf8 else .error .unencodable

end Text

namespace Bytes

/-! ## UTF-8 -/

/-- How many bytes follow a first byte, and the least and the greatest value of the next one. -/
def utf8Shape? (first : Nat) : Option (Nat × Nat × Nat) :=
  if first < 0xC2 then none
  else if first < 0xE0 then some (1, 0x80, 0xBF)
  else if first = 0xE0 then some (2, 0xA0, 0xBF)
  else if first = 0xED then some (2, 0x80, 0x9F)
  else if first < 0xF0 then some (2, 0x80, 0xBF)
  else if first = 0xF0 then some (3, 0x90, 0xBF)
  else if first < 0xF4 then some (3, 0x80, 0xBF)
  else if first = 0xF4 then some (3, 0x80, 0x8F)
  else none

/-- Reads the bytes after a first one.  `seen` bytes and their value `n` are given, `owed` bytes are
still to come, and the next of them lies between two bounds. -/
def utf8Tail (seen n low high : Nat) : (owed : Nat) → Bytes → Except (Text × Nat) (CodePoint × Nat)
  | 0, _ => .ok (Text.codePointOr n, seen)
  | _ + 1, [] => .error ("unexpected end of data", seen)
  | owed + 1, b :: bs =>
    if low ≤ b.toNat ∧ b.toNat ≤ high then
      utf8Tail (seen + 1) (n * 0x40 + (b.toNat - 0x80)) 0x80 0xBF owed bs
    else .error ("invalid continuation byte", seen)

/-- The surrogate that is written with three bytes at the beginning. -/
def utf8Surrogate? : Bytes → Option CodePoint
  | a :: b :: c :: _ =>
    if a.toNat = 0xED ∧ 0xA0 ≤ b.toNat ∧ b.toNat < 0xC0 ∧ 0x80 ≤ c.toNat ∧ c.toNat < 0xC0 then
      CodePoint.ofNat? (0xD000 + (b.toNat - 0x80) * 0x40 + (c.toNat - 0x80))
    else none
  | _ => none

/-- The code point at the beginning of bytes and the number of bytes that it takes, or the reason
why there is none and the number of bytes to blame. -/
def utf8Scan (surrogates : Bool) (bytes : Bytes) : Except (Text × Nat) (CodePoint × Nat) :=
  match (if surrogates then utf8Surrogate? bytes else none), bytes with
  | some c, _ => .ok (c, 3)
  | none, [] => .error ("unexpected end of data", 0)
  | none, b :: bs =>
    if b.toNat < 0x80 then .ok (Text.codePointOr b.toNat, 1)
    else
      match utf8Shape? b.toNat with
      | none => .error ("invalid start byte", 1)
      | some (owed, low, high) => utf8Tail 1 (b.toNat % Nat.pow 2 (6 - owed)) low high owed bs

/-- Decodes bytes from a place on; `skip` of them belong to the code point before. -/
def decodeUtf8From (surrogates : Bool) (place skip : Nat) : Bytes → Except Malformed Text
  | [] => .ok []
  | b :: bs =>
    match skip with
    | skip + 1 => decodeUtf8From surrogates (place + 1) skip bs
    | 0 =>
      match utf8Scan surrogates (b :: bs) with
      | .error (reason, width) => .error ⟨place, width, reason⟩
      | .ok (c, width) => do
        return c :: (← decodeUtf8From surrogates (place + 1) (width - 1) bs)

/-- The text of UTF-8 bytes; surrogates standing alone are admitted on request. -/
def decodeUtf8 (surrogates : Bool) (bytes : Bytes) : Except Malformed Text :=
  decodeUtf8From surrogates 0 0 bytes

/-- Decodes bytes of which some need not be UTF-8; `skip` of them belong to what came before. -/
def decodeLeniently (standIn : Bytes → Text) (skip : Nat) : Bytes → Text
  | [] => []
  | b :: bs =>
    match skip with
    | skip + 1 => decodeLeniently standIn skip bs
    | 0 =>
      match utf8Scan false (b :: bs) with
      | .error (_, width) =>
        standIn ((b :: bs).take width) ++ decodeLeniently standIn (width - 1) bs
      | .ok (c, width) => c :: decodeLeniently standIn (width - 1) bs

/-! ## UTF-16 and UTF-32 -/

/-- The number that bytes write in a given order. -/
def unit (bigEndian : Bool) (bytes : Bytes) : Nat :=
  (if bigEndian then bytes else bytes.reverse).foldl (fun n b => n * 0x100 + b.toNat) 0

/-- Joins the surrogate pairs among code units; other surrogates stand for themselves. -/
def joinUnits : List Nat → Text
  | [] => []
  | [u] => [Text.codePointOr u]
  | u :: v :: us =>
    if 0xD800 ≤ u ∧ u < 0xDC00 ∧ 0xDC00 ≤ v ∧ v < 0xE000 then
      Text.codePointOr (0x10000 + (u - 0xD800) * 0x400 + (v - 0xDC00)) :: joinUnits us
    else Text.codePointOr u :: joinUnits (v :: us)

/-- The code units of UTF-16 bytes from a place on. -/
def units16 (bigEndian : Bool) (place : Nat) : Bytes → Except Malformed (List Nat)
  | [] => .ok []
  | [_] => .error ⟨place, 1, "truncated data"⟩
  | a :: b :: bs => do
    return unit bigEndian [a, b] :: (← units16 bigEndian (place + 2) bs)

/-- The text of UTF-16 bytes from a place on. -/
def decode16 (bigEndian : Bool) (place : Nat) (bytes : Bytes) : Except Malformed Text :=
  (units16 bigEndian place bytes).map joinUnits

/-- The text of UTF-32 bytes from a place on. -/
def decode32 (bigEndian : Bool) (place : Nat) : Bytes → Except Malformed Text
  | [] => .ok []
  | a :: b :: c :: d :: bs =>
    match CodePoint.ofNat? (unit bigEndian [a, b, c, d]) with
    | none => .error ⟨place, 4, "code point not in range(0x110000)"⟩
    | some p => do return p :: (← decode32 bigEndian (place + 4) bs)
  | rest => .error ⟨place, rest.length, "truncated data"⟩

/-! ## Encodings -/

/-- An encoding; the wider ones have a byte order. -/
inductive Encoding where
  | utf8
  | utf16 (bigEndian : Bool)
  | utf32 (bigEndian : Bool)
  deriving DecidableEq, Repr

/-- The name of an encoding. -/
def Encoding.name : Encoding → Text
  | .utf8 => "utf-8"
  | .utf16 false => "utf-16-le"
  | .utf16 true => "utf-16-be"
  | .utf32 false => "utf-32-le"
  | .utf32 true => "utf-32-be"

/-- The marks that tell an encoding, the longer ones first. -/
def marks : List (Bytes × Encoding) :=
  [([0, 0, 0xFE, 0xFF], .utf32 true), ([0xFF, 0xFE, 0, 0], .utf32 false),
    ([0xFE, 0xFF], .utf16 true), ([0xFF, 0xFE], .utf16 false), ([0xEF, 0xBB, 0xBF], .utf8)]

/-- The encoding told by the zeros among the first four bytes, or by those of two bytes. -/
def guessEncoding : Bytes → Encoding
  | a :: b :: c :: d :: _ =>
    if a = 0 then (if b = 0 then .utf32 true else .utf16 true)
    else if b = 0 then (if c = 0 ∧ d = 0 then .utf32 false else .utf16 false)
    else .utf8
  | [a, b] => if a = 0 then .utf16 true else if b = 0 then .utf16 false else .utf8
  | _ => .utf8

/-- The encoding of bytes and the length of the mark at their beginning. -/
def encoding (bytes : Bytes) : Encoding × Nat :=
  match marks.find? fun m => m.1.isPrefixOf bytes with
  | some (mark, e) => (e, mark.length)
  | none => (guessEncoding bytes, 0)

/-- The wording of a failure to decode bytes. -/
def Malformed.message (e : Encoding) (bytes : Bytes) (m : Malformed) : Text :=
  ("'" : Text) ++ e.name ++ ("' codec can't decode " : Text) ++
    (if m.width = 1 then
      ("byte 0x" : Text) ++
        Text.ofChars (hexDigits 2 ((bytes.drop m.place).headD 0).toNat) ++
        (" in position " : Text) ++ Numeral.digits m.place
    else
      ("bytes in position " : Text) ++ Numeral.digits m.place ++ ("-" : Text) ++
        Numeral.digits (m.place + m.width - 1)) ++
    (": " : Text) ++ m.reason

/-- The text of bytes in their own encoding.  Places in a failure count from the beginning of the
bytes, but from the end of the mark in UTF-8. -/
def decode (bytes : Bytes) : Except Fault Text :=
  let (e, mark) := encoding bytes
  let content := bytes.drop mark
  let (counted, result) := match e with
    | .utf8 => (content, decodeUtf8 true content)
    | .utf16 bigEndian => (bytes, decode16 bigEndian mark content)
    | .utf32 bigEndian => (bytes, decode32 bigEndian mark content)
  match result with
  | .ok t => .ok t
  | .error m => .error (.undecodable (Malformed.message e counted m))

/-- The text of UTF-8 bytes, which admits no surrogates. -/
def ofUtf8 (bytes : Bytes) : Except Fault Text :=
  match decodeUtf8 false bytes with
  | .ok t => .ok t
  | .error m => .error (.undecodable (Malformed.message .utf8 bytes m))

/-- The text of a file in UTF-8, with every line break as a line feed. -/
def ofTextFile (bytes : Bytes) : Except Fault Text := (ofUtf8 bytes).map Text.unifyLineBreaks

end Bytes

namespace Text

/-- The name of a file with bytes that are no UTF-8 as surrogates, and no others. -/
def onDisk (name : Text) : Text :=
  if name.isScalar then name
  else Bytes.decodeLeniently (fun bs => bs.map fun b => codePointOr (0xDC00 + b.toNat)) 0
    name.nameBytes

/-- The name of a file with bytes that are no UTF-8 replaced. -/
def shownName (name : Text) : Text :=
  Bytes.decodeLeniently (fun _ => [.scalar '\uFFFD']) 0 name.nameBytes

end Text

end Winnow

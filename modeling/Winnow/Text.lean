/-!
# Text as a sequence of code points

Filter values and record values hold any sequence of Unicode code points, surrogates standing
alone included: a stored document may spell one with an escape, and it has to survive until it is
written again.  `Text` is therefore a list of code points and not a `String`.

* `Text.ofString`: the text of a string, also used as a coercion.
* `Text.splitOn`, `List.intercalate`: cutting at a separator and joining with one.
* `Text.occursIn`: whether one text is a contiguous part of another.
* `Text.order`: comparison by code point, the collation of the C locale.
-/

namespace Winnow

/-- A Unicode code point: a scalar value, or a surrogate standing alone. -/
inductive CodePoint where
  | scalar (c : Char)
  | surrogate (offset : Fin 0x800)
  deriving DecidableEq, Repr

namespace CodePoint

instance : Inhabited CodePoint := ⟨.scalar ' '⟩

/-- The number of a code point; the surrogates are the numbers from `0xD800` to `0xDFFF`. -/
def toNat : CodePoint → Nat
  | .scalar c => c.toNat
  | .surrogate n => 0xD800 + n.val

/-- The code point with a number, if there is one. -/
def ofNat? (n : Nat) : Option CodePoint :=
  if h : 0xD800 ≤ n ∧ n < 0xE000 then
    some (.surrogate ⟨n - 0xD800, by omega⟩)
  else if n < 0x110000 then some (.scalar (Char.ofNat n)) else none

/-- The character of a code point, the replacement character for a surrogate. -/
def toChar : CodePoint → Char
  | .scalar c => c
  | .surrogate _ => '\uFFFD'

/-- Whether the code point is in one of the closed ranges of a table. -/
def inRanges (table : List (Nat × Nat)) (c : CodePoint) : Bool :=
  table.any fun r => r.1 ≤ c.toNat && c.toNat ≤ r.2

end CodePoint

/-- A text is a list of code points. -/
abbrev Text := List CodePoint

namespace Text

/-- The text of a list of characters. -/
def ofChars (cs : List Char) : Text := cs.map .scalar

/-- The text of a string. -/
def ofString (s : String) : Text := ofChars s.toList

instance : Coe String Text := ⟨ofString⟩

/-- The characters of a text; a surrogate is seen as the replacement character. -/
def chars (t : Text) : List Char := t.map CodePoint.toChar

/-- The rest of a text after a given beginning. -/
def dropPrefix? : Text → Text → Option Text
  | [], t => some t
  | _ :: _, [] => none
  | p :: ps, c :: cs => if p = c then dropPrefix? ps cs else none

/-- Whether the first text is a contiguous part of the second. -/
def occursIn (part : Text) : Text → Bool
  | [] => part.isEmpty
  | c :: cs => part.isPrefixOf (c :: cs) || occursIn part cs

/-- Puts a code point in front of the first piece. -/
def consFirst (c : CodePoint) : List Text → List Text
  | [] => [[c]]
  | piece :: pieces => (c :: piece) :: pieces

/-- Cuts a text after `skip` code points at every further occurrence of the separator. -/
def splitAfter (separator : Text) : Nat → Text → List Text
  | _, [] => [[]]
  | skip + 1, _ :: cs => splitAfter separator skip cs
  | 0, c :: cs =>
    if separator.isPrefixOf (c :: cs) then [] :: splitAfter separator (separator.length - 1) cs
    else consFirst c (splitAfter separator 0 cs)

/-- Cuts a text at the occurrences of a non-empty separator, from the left and without overlap. -/
def splitOn (separator t : Text) : List Text := splitAfter separator 0 t

/-- Comparison by code point, a proper beginning first. -/
def order : Text → Text → Ordering
  | [], [] => .eq
  | [], _ :: _ => .lt
  | _ :: _, [] => .gt
  | a :: as, b :: bs => (compare a.toNat b.toNat).then (order as bs)

/-- A text without a line feed at its end. -/
def withoutFinalBreak (t : Text) : Text :=
  if t.getLast? = some (.scalar '\n') then t.dropLast else t

/-- The code point zero. -/
def nul : CodePoint := .scalar (Char.ofNat 0)

end Text

end Winnow

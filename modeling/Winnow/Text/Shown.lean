import Winnow.Text.Quoted

/-!
# Texts as they are shown

A message may quote any text.  `Text.shown` is what is shown of it: control sequences, which would
change how what follows is displayed, are left out, a surrogate standing alone is shown by its
escape, and a line ends in a line feed alone.
-/

namespace Winnow.Text

/-- Whether the number of a code point lies between two bounds. -/
def isBetween (low high : Nat) (c : CodePoint) : Bool := low ≤ c.toNat && c.toNat ≤ high

/-- The length of the control sequence at the beginning of a text: an escape and a bracket,
parameters, intermediate characters, and a final one. -/
def controlLength : Text → Nat
  | .scalar '\x1b' :: .scalar '[' :: t =>
    let parameters := t.takeWhile (isBetween 0x30 0x3F)
    let rest := t.drop parameters.length
    let between := rest.takeWhile (isBetween 0x20 0x2F)
    if (rest[between.length]?).any (isBetween 0x40 0x7E) then
      parameters.length + between.length + 3
    else 0
  | _ => 0

/-- A text without control sequences, the first code points being left out, too. -/
def withoutControls : (skip : Nat) → Text → Text
  | _, [] => []
  | skip + 1, _ :: t => withoutControls skip t
  | 0, c :: t =>
    match controlLength (c :: t) with
    | 0 => c :: withoutControls 0 t
    | n + 1 => withoutControls n t

/-- A code point, or the escape of a surrogate. -/
def orEscape (c : CodePoint) : Text :=
  match c with
  | .scalar c => [.scalar c]
  | .surrogate _ => ofChars ('\\' :: 'u' :: hexDigits 4 c.toNat)

/-- A text without the carriage returns before line feeds. -/
def dropReturns : Text → Text
  | [] => []
  | .scalar '\r' :: .scalar '\n' :: t => .scalar '\n' :: dropReturns t
  | c :: t => c :: dropReturns t

/-- What is shown of a text. -/
def shown (t : Text) : Text := dropReturns ((withoutControls 0 t).flatMap orEscape)

end Winnow.Text

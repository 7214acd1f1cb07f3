import Winnow.Text.Encoding

/-!
# Base64

`Text.ofBase64?` reads bytes that are written with four characters for three of them.  Characters
beyond the alphabet do not count, and nothing is read behind the equals signs that fill the last
group of four.  A group that is begun has to be filled.
-/

namespace Winnow

/-- The value of a character of the alphabet. -/
def CodePoint.base64Value? (c : CodePoint) : Option Nat :=
  let n := c.toNat
  if 0x41 ≤ n ∧ n ≤ 0x5A then some (n - 0x41)
  else if 0x61 ≤ n ∧ n ≤ 0x7A then some (n - 0x61 + 26)
  else if 0x30 ≤ n ∧ n ≤ 0x39 then some (n - 0x30 + 52)
  else if c = .scalar '+' then some 62
  else if c = .scalar '/' then some 63
  else none

namespace Text

/-- The bytes of a group of values. -/
def groupBytes : List Nat → Bytes
  | a :: b :: rest =>
    UInt8.ofNat (a * 4 + b / 16) :: match rest with
      | [] => []
      | c :: rest =>
        UInt8.ofNat (b % 16 * 16 + c / 4) :: match rest with
          | [] => []
          | d :: _ => [UInt8.ofNat (c % 4 * 64 + d)]
  | _ => []

/-- The bytes of the rest of a text, of which the values of a group that is not complete were read,
and so many equals signs behind them. -/
def ofBase64From? (group : List Nat) (signs : Nat) : Text → Option Bytes
  | [] => if group.isEmpty then some [] else none
  | c :: t =>
    if c = .scalar '=' then
      if group.length < 2 then ofBase64From? group signs t
      else if 4 ≤ group.length + signs + 1 then some (groupBytes group)
      else ofBase64From? group (signs + 1) t
    else
      match c.base64Value? with
      | none => ofBase64From? group signs t
      | some n =>
        if group.length = 3 then (ofBase64From? [] 0 t).map (groupBytes (group ++ [n]) ++ ·)
        else ofBase64From? (group ++ [n]) 0 t

/-- The bytes that a text in ASCII writes. -/
def ofBase64? (t : Text) : Option Bytes :=
  if t.all fun c => c.toNat < 0x80 then ofBase64From? [] 0 t else none

end Text

end Winnow
